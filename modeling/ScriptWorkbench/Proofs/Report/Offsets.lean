import ScriptWorkbench.Proofs.Report.Leftmost
import ScriptWorkbench.Proofs.Text.Encoding
import ScriptWorkbench.Report.ByteScan

/-!
# Findings by byte offsets and by characters

The search that goes over the bytes of a line cuts it only between characters, and finds what
`ErrorLine.ofText` finds (`ByteScan.scan_eq`).  With that, `ErrorLine.ofText` is the leftmost
finding of a line whichever way it is looked for (`ErrorLine.ofText_leftmost`).
-/

set_option autoImplicit false

namespace ScriptWorkbench.ByteScan

open Finding

/-- Digits are the same by characters and by bytes. -/
theorem isAsciiClass_digit : IsAsciiClass Char.isDigit isDigitByte where
  char := by
    intro c hc
    have hrange : (48 ≤ c.val && c.val ≤ 57) = true := hc
    simp only [Bool.and_eq_true, decide_eq_true_eq] at hrange
    exact Nat.lt_of_le_of_lt (UInt32.le_iff_toNat_le.1 hrange.2) (by decide)
  byte := by
    intro b hb
    simp only [isDigitByte, Bool.and_eq_true, decide_eq_true_eq] at hb
    exact Nat.lt_of_le_of_lt (UInt8.le_iff_toNat_le.1 hb.2) (by decide)
  agree := by decide +kernel

/-- Name characters are the same by characters and by bytes. -/
theorem isAsciiClass_name : IsAsciiClass isNameChar isNameByte where
  char := by
    intro c hc
    have hrange : ((decide (65 ≤ c.val ∧ c.val ≤ 90) || 97 ≤ c.val && c.val ≤ 122) ||
        48 ≤ c.val && c.val ≤ 57 || c = '_' || c = '-') = true := hc
    simp only [Bool.or_eq_true, Bool.and_eq_true, decide_eq_true_eq] at hrange
    rcases hrange with (((hc | hc) | hc) | rfl) | rfl
    · exact Nat.lt_of_le_of_lt (UInt32.le_iff_toNat_le.1 hc.2) (by decide)
    · exact Nat.lt_of_le_of_lt (UInt32.le_iff_toNat_le.1 hc.2) (by decide)
    · exact Nat.lt_of_le_of_lt (UInt32.le_iff_toNat_le.1 hc.2) (by decide)
    · decide
    · decide
  byte := by
    intro b hb
    simp only [isNameByte, isDigitByte, Bool.or_eq_true, Bool.and_eq_true, decide_eq_true_eq] at hb
    rcases hb with (((hb | hb) | hb) | rfl) | rfl
    · exact Nat.lt_of_le_of_lt (UInt8.le_iff_toNat_le.1 hb.2) (by decide)
    · exact Nat.lt_of_le_of_lt (UInt8.le_iff_toNat_le.1 hb.2) (by decide)
    · exact Nat.lt_of_le_of_lt (UInt8.le_iff_toNat_le.1 hb.2) (by decide)
    · decide
    · decide
  agree := by decide +kernel

/-! ## A finding at one place -/

/-- A slice that is there does not stop the scan. -/
@[simp]
theorem orStop_some_bind {α β : Type} (stop : Stop) (a : α) (f : α → Except Stop β) :
    (orStop stop (some a) >>= f) = f a := rfl

/-- A digit run is cut out of a text at its own length. -/
theorem number_eq (t : Text) : number t = orStop .mismatch (number? t) := by
  have hlength := isAsciiClass_digit.length_takeWhile t
  have hfrom : t.sliceFrom? (Text.byteSize (t.takeWhile Char.isDigit)) =
      some (t.dropWhile Char.isDigit) := by
    have hcut := Text.sliceFrom?_append (t.takeWhile Char.isDigit) (t.dropWhile Char.isDigit)
    rwa [List.takeWhile_append_dropWhile] at hcut
  have hto : t.sliceTo? (Text.byteSize (t.takeWhile Char.isDigit)) =
      some (t.takeWhile Char.isDigit) := by
    have hcut := Text.sliceTo?_append (t.takeWhile Char.isDigit) (t.dropWhile Char.isDigit)
    rwa [List.takeWhile_append_dropWhile] at hcut
  simp only [number, number?, hlength, hfrom, hto]
  cases hdigits : t.takeWhile Char.isDigit with
  | nil => rfl
  | cons d digits =>
    have hpos : Text.byteSize (d :: digits) ≠ 0 := by
      have := d.utf8Size_pos
      rw [Text.byteSize_cons]
      omega
    rw [if_neg hpos]
    by_cases hvalue : Text.digitsValue (d :: digits) ≤ maxNumber
    · rw [if_pos ⟨by simp, hvalue⟩]
      simp only [slice, orStop_some_bind]
      rw [if_neg (Nat.not_lt_of_le hvalue)]
      rfl
    · rw [if_neg fun h => hvalue h.2]
      simp only [slice, orStop_some_bind]
      rw [if_pos (Nat.lt_of_not_le hvalue)]
      rfl

/-- What is expected in two parts is expected one part after the other. -/
theorem expect?_append (a b t : Text) :
    expect? (a ++ b) t = (expect? a t).bind (expect? b) := by
  ext rest
  rw [Option.bind_eq_some_iff]
  simp only [expect?_eq_some_iff]
  constructor
  · rintro rfl
    exact ⟨b ++ rest, List.append_assoc a b rest, rfl⟩
  · rintro ⟨middle, rfl, rfl⟩
    exact (List.append_assoc a b rest).symm

/-- Where a name begins, the search by bytes and the search by characters find the same. -/
theorem matchAt_eq (before : Text) {t : Text} (hname : t.takeWhile isNameChar ≠ []) :
    matchAt (before ++ t) before.byteSize =
      orStop .mismatch ((here? t).map fun f => { f with lead := before }) := by
  have hlength := isAsciiClass_name.length_takeWhile t
  have hend : (before ++ t).sliceFrom?
      (before.byteSize + Text.byteSize (t.takeWhile isNameChar)) =
      some (t.dropWhile isNameChar) := by
    have hcut := Text.sliceFrom?_append (before ++ t.takeWhile isNameChar) (t.dropWhile isNameChar)
    rwa [List.append_assoc, List.takeWhile_append_dropWhile, Text.byteSize_append] at hcut
  have hmarker : marker = ['.', 'k', 't', 's'] ++ [':'] := rfl
  simp only [matchAt, here?, slice, expect, Text.sliceFrom?_append, Text.sliceTo?_append,
    orStop_some_bind, hlength, hend, hmarker, expect?_append]
  cases hextension : expect? ['.', 'k', 't', 's'] (t.dropWhile isNameChar) with
  | none => rfl
  | some rest =>
    have hfile : ((before ++ t).sliceTo?
        (before.byteSize + Text.byteSize (t.takeWhile isNameChar) + 4)).bind
          (fun u => u.sliceFrom? before.byteSize) =
        some (t.takeWhile isNameChar ++ ['.', 'k', 't', 's']) := by
      have hcut := Text.sliceTo?_append
        (before ++ (t.takeWhile isNameChar ++ ['.', 'k', 't', 's'])) rest
      rw [List.append_assoc, List.append_assoc, ← expect?_eq_some_iff.1 hextension,
        List.takeWhile_append_dropWhile, Text.byteSize_append, Text.byteSize_append,
        ← Nat.add_assoc] at hcut
      have hfour : Text.byteSize ['.', 'k', 't', 's'] = 4 := by decide
      rw [hfour] at hcut
      rw [hcut, Option.bind_some, Text.sliceFrom?_append]
    simp only [hfile, orStop_some_bind, Option.bind_some, Option.bind_eq_bind, number_eq]
    cases expect? [':'] rest with
    | none => rfl
    | some rest =>
      simp only [orStop_some_bind, Option.bind_some]
      cases number? rest with
      | none => rfl
      | some found =>
        simp only [orStop_some_bind, Option.bind_some]
        cases expect? [':'] found.2 with
        | none => rfl
        | some rest =>
          simp only [orStop_some_bind, Option.bind_some]
          cases number? rest with
          | none => rfl
          | some found =>
            simp only [orStop_some_bind, Option.bind_some]
            cases expect? [':'] found.2 with
            | none => rfl
            | some message =>
              simp only [orStop_some_bind, Option.bind_some, if_neg hname]
              rfl

/-! ## The places where names begin -/

/-- The places where a run of name bytes begins, from byte `n` on.  The flag says whether a name
byte stands just before. -/
def startsFrom (n : Nat) (insideName : Bool) : Bytes → List Nat
  | [] => []
  | b :: bs =>
    let later := startsFrom (n + 1) (isNameByte b) bs
    if isNameByte b && !insideName then n :: later else later

/-- Whether a name byte stands just before a place can be told from the bytes before it. -/
theorem filter_range'_eq_startsFrom (before bytes : Bytes) :
    (List.range' before.length bytes.length).filter (fun i =>
      (before ++ bytes)[i]?.any isNameByte &&
        (i = 0 || !(before ++ bytes)[i - 1]?.any isNameByte)) =
      startsFrom before.length (before.getLast?.any isNameByte) bytes := by
  induction bytes generalizing before with
  | nil => rfl
  | cons b bytes ih =>
    have hhere : (before ++ b :: bytes)[before.length]? = some b := by simp
    have hlast : (before.length = 0 || !(before ++ b :: bytes)[before.length - 1]?.any isNameByte) =
        !before.getLast?.any isNameByte := by
      by_cases hnil : before = []
      · subst hnil
        rfl
      · have hpos : 0 < before.length := List.length_pos_iff.2 hnil
        have hlt : before.length - 1 < before.length := Nat.sub_lt hpos Nat.zero_lt_one
        rw [List.getElem?_append_left hlt, ← List.getLast?_eq_getElem?]
        simp [hnil]
    have hrest := ih (before ++ [b])
    rw [List.length_append, List.append_assoc, List.singleton_append, List.getLast?_concat] at hrest
    rw [List.length_cons, List.range'_succ, List.filter_cons, hhere, hlast, startsFrom]
    rw [show List.filter _ (List.range' (before.length + 1) bytes.length) = _ from hrest]
    rfl

/-- The offsets where a name may begin are those where a run of name bytes does. -/
theorem nameStarts_eq (bytes : Bytes) : nameStarts bytes = startsFrom 0 false bytes := by
  have h := filter_range'_eq_startsFrom [] bytes
  rw [List.length_nil, ← List.range_eq_range'] at h
  exact h

/-- Bytes that are not in names begin none. -/
theorem startsFrom_append {front : Bytes} (hfront : front ≠ [])
    (hother : ∀ b ∈ front, isNameByte b = false) (n : Nat) (insideName : Bool) (bytes : Bytes) :
    startsFrom n insideName (front ++ bytes) = startsFrom (n + front.length) false bytes := by
  induction front generalizing n insideName with
  | nil => exact absurd rfl hfront
  | cons b front ih =>
    have hb : isNameByte b = false := hother b List.mem_cons_self
    rw [List.cons_append, startsFrom, hb]
    cases front with
    | nil => rfl
    | cons b' front =>
      have hrest := ih (List.cons_ne_nil b' front)
        (fun c hc => hother c (List.mem_cons_of_mem b hc)) (n + 1) false
      rw [Nat.add_assoc, Nat.add_comm 1] at hrest
      exact hrest

/-- A name begins at the byte of its first character. -/
theorem startsFrom_cons (n : Nat) (insideName : Bool) (c : Char) (t : Text) :
    startsFrom n insideName (Text.bytes (c :: t)) =
      (if isNameChar c && !insideName then [n] else []) ++
        startsFrom (n + c.utf8Size) (isNameChar c) t.bytes := by
  have hbytes : ∀ b ∈ String.utf8EncodeChar c, isNameByte b = isNameChar c := by
    intro b hb
    exact isAsciiClass_name.mem_utf8EncodeChar hb
  rw [Text.bytes_cons]
  cases hc : isNameChar c with
  | true =>
    have hsmall := isAsciiClass_name.char c hc
    have hsize : c.utf8Size = 1 := by
      rw [← String.length_utf8EncodeChar, utf8EncodeChar_ascii hsmall]
      rfl
    rw [utf8EncodeChar_ascii hsmall] at hbytes ⊢
    rw [List.singleton_append, startsFrom, hbytes _ List.mem_cons_self, hc, hsize]
    cases insideName <;> rfl
  | false =>
    have hother : ∀ b ∈ String.utf8EncodeChar c, isNameByte b = false := by
      intro b hb
      rw [hbytes b hb, hc]
    rw [startsFrom_append String.utf8EncodeChar_ne_nil hother, String.length_utf8EncodeChar]
    rfl

/-! ## The whole line -/

/-- The scan by offsets never stops at a boundary that is none, and it finds the first finding of
the rest with all that stands before it. -/
theorem scanFrom_eq (before t : Text) (insideName : Bool) :
    scanFrom (before ++ t) (startsFrom before.byteSize insideName t.bytes) =
      .ok (match first? insideName t with
        | some f => .finding { f with lead := before ++ f.lead }
        | none => .plain (before ++ t)) := by
  induction t generalizing before insideName with
  | nil => rfl
  | cons c t ih =>
    have hrest := ih (before ++ [c]) (isNameChar c)
    rw [List.append_assoc, Text.byteSize_append, List.singleton_append] at hrest
    have hlater : scanFrom (before ++ c :: t)
        (startsFrom (before.byteSize + c.utf8Size) (isNameChar c) (Text.bytes t)) =
        .ok (match (first? (isNameChar c) t).map fun f => { f with lead := c :: f.lead } with
          | some f => .finding { f with lead := before ++ f.lead }
          | none => .plain (before ++ c :: t)) := by
      have hsize : Text.byteSize [c] = c.utf8Size := rfl
      rw [hsize] at hrest
      rw [hrest]
      cases first? (isNameChar c) t with
      | none => rfl
      | some f => simp
    rw [startsFrom_cons, first?]
    cases hstart : isNameChar c && !insideName with
    | false => exact hlater
    | true =>
      have hc : isNameChar c = true := by
        rw [Bool.and_eq_true] at hstart
        exact hstart.1
      have hname : (c :: t).takeWhile isNameChar ≠ [] := by
        rw [List.takeWhile_cons_of_pos hc]
        exact List.cons_ne_nil c _
      simp only [if_true, List.singleton_append, scanFrom, matchAt_eq before hname]
      cases hhere : here? (c :: t) with
      | none => exact hlater
      | some f =>
        obtain ⟨p, -, hlead, -, rfl⟩ := here?_eq_some_iff.1 hhere
        simp [orStop, Parts.finding, hlead]

/-- The search by byte offsets never cuts a character, and it finds what the search by characters
finds. -/
theorem scan_eq (line : Text) : scan line = .ok (ErrorLine.ofText line) := by
  have h := scanFrom_eq [] line false
  rw [List.nil_append, Text.byteSize_nil] at h
  rw [scan, nameStarts_eq, h]
  unfold ErrorLine.ofText
  cases first? false line <;> rfl

end ScriptWorkbench.ByteScan

namespace ScriptWorkbench.ErrorLine

open Finding

/-- A line is plain exactly when nothing takes it apart.  Else it carries the finding of the parts
with the shortest lead; a number that is too great makes parts invalid, so a later place is found.
The search at every place of the line finds the same, and so does the search by byte offsets, which
never cuts a character. -/
theorem ofText_leftmost (line : Text) :
    (ofText line = .plain line ↔ ¬ ∃ p : Parts, p.IsValid ∧ p.line = line) ∧
    (∀ f, ofText line = .finding f ↔ ∃ p : Parts, p.IsLeftmost line ∧ p.finding = f) ∧
    (∀ text, ofText line = .plain text → text = line) ∧
    (ofText line).finding? = anywhere? line ∧
    ByteScan.scan line = .ok (ofText line) := by
  have hsearch := first?_eq_anywhere? line
  refine ⟨?_, ?_, ?_, ?_, ByteScan.scan_eq line⟩
  · rw [← anywhere?_eq_none_iff, ← hsearch, ofText]
    cases first? false line <;> simp
  · intro f
    rw [← anywhere?_eq_some_iff, ← hsearch, ofText]
    cases first? false line <;> simp
  · intro text
    rw [ofText]
    cases first? false line with
    | none =>
      intro h
      exact (ErrorLine.plain.inj h).symm
    | some f => simp
  · rw [← hsearch, ofText]
    cases first? false line <;> rfl

/-- The first name has a line number that is too great, and the message holds a third location. -/
example : ofText "é x.kts:4294967296:1:ab.kts:07:2:c.kts:1:1:".toList =
    .finding ⟨"é x.kts:4294967296:1:".toList, "ab.kts".toList, ⟨7, 2⟩, "c.kts:1:1:".toList⟩ := by
  decide +kernel

end ScriptWorkbench.ErrorLine
