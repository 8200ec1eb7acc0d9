import ScriptWorkbench.Proofs.Json.Rows
import ScriptWorkbench.Settings.Document

/-!
# Reading values and records

What a reader answers on the marks of a value is what a function on values says (`Reads`).  A record
that is read member by member is the one that comes out when its fields are looked up one by one
(`reads_record`): every field may be written once and only its own value counts, so the order of the
members does not matter.
-/

set_option autoImplicit false

namespace ScriptWorkbench.Json

open Value

/-! ## Values that are no records -/

/-- Whether two readings in a row succeed does not depend on how they fail. -/
theorem toOption_bind {ε α β : Type} (x : Except ε α) (f : α → Except ε β) :
    (x >>= f).toOption = x.toOption.bind fun a => (f a).toOption := by
  cases x <;> rfl

/-- Changing a result does not change whether there is one. -/
theorem toOption_map {ε α β : Type} (x : Except ε α) (f : α → β) :
    (x.map f).toOption = x.toOption.map f := by
  cases x <;> rfl

/-- A string or a number that could be read is what was read. -/
theorem get_ok {α : Type} (a : α) (skipped : Except Fault Unit) :
    Reading.get ⟨.ok a, skipped⟩ = .ok a :=
  rfl

/-- On the marks of the value, and whatever follows them, the reader answers what `read` says. -/
def Reads {α : Type} (reader : Reader α) (read : Value → Option α) (v : Value) : Prop :=
  ∀ rest, (reader (v.row ++ rest)).toOption = (read v).map fun a => (a, rest)

/-- A value of the wrong type is refused, whatever it is. -/
theorem toOption_wrongType {α : Type} (expected : Text) (v : Value) (rest : List Mark) :
    (wrongType expected (v.row ++ rest) : Except Problem α).toOption = none := by
  cases v with
  | boolean b => cases b <;> rfl
  | number x =>
    simp only [row, List.singleton_append, wrongType, Reading.get]
    cases x.value <;> rfl
  | _ => rfl

/-- A string is read as the string it is, and nothing else is. -/
theorem reads_text (expected : Text) (v : Value) : Reads (readText expected) text? v := by
  intro rest
  cases v with
  | text t => rfl
  | number x => exact toOption_wrongType expected (.number x) rest
  | boolean b => exact toOption_wrongType expected (.boolean b) rest
  | _ => rfl

/-- A string or `null` is read as such, and nothing else is. -/
theorem reads_optionalText (expected : Text) (v : Value) :
    Reads (readOptionalText expected) optionalText? v := by
  intro rest
  cases v with
  | null => rfl
  | text t => rfl
  | number x =>
    have hnone := toOption_wrongType (α := Text × List Mark) expected (.number x) rest
    simp only [row, List.singleton_append] at hnone
    simp [row, readOptionalText, readText, toOption_map, hnone, optionalText?]
  | boolean b => cases b <;> rfl
  | _ => rfl

/-- A number has a natural value only if it is written with digits alone. -/
theorem natural?_eq (x : Numeral) :
    natural? (.number x) = match x.value with
      | .ok (.natural n) => some n
      | _ => none := by
  simp only [natural?, Numeral.value]
  by_cases h : x.isInteger ∧ !x.negative ∧ Text.digitsValue x.whole ≤ Numeral.maxNatural
  · simp only [if_pos h]
  · simp only [if_neg h]
    split
    next heq =>
      split at heq
      next => simp at heq
      next => split at heq <;> simp at heq
    next => rfl

/-- A number is read as a natural number exactly if it is one in the range. -/
theorem reads_natural (expected : Text) (v : Value) : Reads (readNatural expected) natural? v := by
  intro rest
  cases v with
  | number x =>
    rw [natural?_eq]
    simp only [row, List.singleton_append, readNatural, Reading.get]
    cases x.value with
    | error f => rfl
    | ok n => cases n <;> rfl
  | boolean b => exact toOption_wrongType expected (.boolean b) rest
  | _ => rfl

/-- The first element of an array of strings has to be a string, and the others are read behind it.
-/
theorem toOption_textItems_row (item : Text) {place : Place}
    (hplace : place = .first ∨ place = .afterComma) (v : Value) (rest : List Mark) :
    (textItems item place (v.row ++ rest)).toOption =
      (text? v).bind fun t =>
        (textItems item .afterItem rest).toOption.map fun (ts, rest) => (t :: ts, rest) := by
  cases v with
  | text t => rcases hplace with rfl | rfl <;> exact toOption_map _ _
  | number x =>
    rcases hplace with rfl | rfl <;> exact toOption_wrongType item (.number x) rest
  | boolean b => rcases hplace with rfl | rfl <;> exact toOption_wrongType item (.boolean b) rest
  | _ => rcases hplace with rfl | rfl <;> rfl

/-- The elements of an array are read as strings exactly if all of them are. -/
theorem toOption_textItems (item : Text) (vs : List Value) (first : Bool) (rest : List Mark) :
    (textItems item (if first then .first else .afterItem) (itemsRow first vs ++ rest)).toOption =
      (vs.mapM text?).map fun ts => (ts, rest) := by
  induction vs generalizing first with
  | nil => cases first <;> rfl
  | cons v vs ih =>
    have hlater : (textItems item .afterItem (itemsRow false vs ++ rest)).toOption = _ := ih false
    have hitem : ∀ place, place = .first ∨ place = .afterComma →
        (textItems item place (v.row ++ (itemsRow false vs ++ rest))).toOption =
          ((v :: vs).mapM text?).map fun ts => (ts, rest) := by
      intro place hplace
      rw [toOption_textItems_row item hplace, hlater, List.mapM_cons]
      cases text? v with
      | none => rfl
      | some t => cases vs.mapM text? <;> rfl
    rw [itemsRow, List.append_assoc, List.append_assoc]
    cases first with
    | true => exact hitem .first (.inl rfl)
    | false => exact hitem .afterComma (.inr rfl)

/-- An array is read as a list of strings exactly if all its elements are strings. -/
theorem reads_texts (expected item : Text) (v : Value) :
    Reads (readTexts expected item) texts? v := by
  intro rest
  cases v with
  | array items => exact toOption_textItems item items true rest
  | number x => exact toOption_wrongType expected (.number x) rest
  | boolean b => exact toOption_wrongType expected (.boolean b) rest
  | _ => rfl

/-- A string is read as a variant exactly if it is the name of one. -/
theorem reads_variant {α : Type} (names : List (Text × α)) {v : Value}
    (hv : Settings.isObject v = false) :
    Reads (readVariant names)
      (fun v => (text? v).bind fun t => (names.find? fun n => n.1 = t).map Prod.snd) v := by
  intro rest
  cases v with
  | text t =>
    simp only [row, textMark, List.singleton_append, readVariant, get_ok, Except.bind, toOption_map,
      text?, Option.bind_some, readVariant.known]
    cases names.find? fun n => n.1 = t <;> rfl
  | object ms => simp [Settings.isObject] at hv
  | _ => rfl

/-! ## Records -/

/-- An object that has each known key at most once and gives it a value of its type. -/
def Fits (known : List (String × (Value → Prop))) (v : Value) : Prop :=
  Settings.isObject v = true ∧ ∀ k ∈ known, (valuesOf k.1 (Settings.membersOf v)).length ≤ 1 ∧
    ∀ w ∈ valuesOf k.1 (Settings.membersOf v), k.2 w

/-- A field of a record: its key, how its value is read from marks and from a value, and where it
stands in the record. -/
structure RecordField (σ : Type) where
  key : String
  Content : Type
  reader : Reader Content
  read : Value → Option Content
  get : σ → Content
  put : Content → σ → σ
  put_get : ∀ s, put (get s) s = s

namespace RecordField

variable {σ : Type} {e f : RecordField σ} {es : List (RecordField σ)}

/-- The slot of a field: its key, and how it is read into the record. -/
def slot (e : RecordField σ) : Slot σ :=
  .of e.key.toList e.reader e.put

/-- Two fields with keys and places of their own. -/
def Apart (e f : RecordField σ) : Prop :=
  e.key ≠ f.key ∧ ∀ a b s, e.put a (f.put b s) = f.put b (e.put a s)

/-- What the members of an object do to the field, when the keys in `seen` came before them. -/
def override (e : RecordField σ) (seen : List Text) (ms : List (Text × Value)) (s : σ) :
    Option σ :=
  match valuesOf e.key ms with
  | [] => some s
  | [v] => if seen.contains e.key.toList then none else (e.read v).map fun a => e.put a s
  | _ => none

/-- What the members of an object do to a record, field by field. -/
def overrideAll (seen : List Text) (ms : List (Text × Value)) :
    List (RecordField σ) → σ → Option σ
  | [], s => some s
  | e :: es, s => (e.override seen ms s).bind (overrideAll seen ms es)

/-- Without fields there is nothing to override. -/
@[simp]
theorem overrideAll_nil (seen : List Text) (ms : List (Text × Value)) (s : σ) :
    overrideAll seen ms [] s = some s :=
  rfl

/-- The first field is looked up among all members, and the others after it. -/
@[simp]
theorem overrideAll_cons (e : RecordField σ) (es : List (RecordField σ))
    (ms : List (Text × Value)) (s : σ) :
    overrideAll [] ms (e :: es) s =
      (field? e.read (e.get s) e.key ms).bind fun a => overrideAll [] ms es (e.put a s) := by
  rw [overrideAll]
  simp only [override, field?]
  cases valuesOf e.key ms with
  | nil => simp [e.put_get]
  | cons v vs =>
    cases vs with
    | nil => exact Option.bind_map
    | cons w ws => rfl

/-- A field can be read exactly if its key is there at most once, with a value that fits. -/
theorem isSome_field? {α : Type} (read : Value → Option α) (standard : α) (key : String)
    (ms : List (Text × Value)) :
    (field? read standard key ms).isSome = true ↔
      (valuesOf key ms).length ≤ 1 ∧ ∀ v ∈ valuesOf key ms, (read v).isSome = true := by
  unfold field?
  cases valuesOf key ms with
  | nil => simp
  | cons v vs => cases vs <;> simp

/-- All fields can be read exactly if each of them can. -/
theorem isSome_overrideAll (es : List (RecordField σ)) (ms : List (Text × Value)) (s : σ) :
    (overrideAll [] ms es s).isSome = true ↔
      ∀ e ∈ es, (valuesOf e.key ms).length ≤ 1 ∧
        ∀ v ∈ valuesOf e.key ms, (e.read v).isSome = true := by
  induction es generalizing s with
  | nil => simp
  | cons e es ih =>
    rw [overrideAll_cons, List.forall_mem_cons, ← isSome_field? e.read (e.get s)]
    cases field? e.read (e.get s) e.key ms with
    | none => simp
    | some a => simp [ih]

/-- Without members every field keeps what it has. -/
theorem overrideAll_members_nil (seen : List Text) (es : List (RecordField σ)) (s : σ) :
    overrideAll seen [] es s = some s := by
  induction es generalizing s with
  | nil => rfl
  | cons e es ih => exact ih s

/-- Members on which each field agrees override alike. -/
theorem overrideAll_congr {seen seen' : List Text} {ms ms' : List (Text × Value)}
    (h : ∀ e ∈ es, ∀ s, e.override seen ms s = e.override seen' ms' s) (s : σ) :
    overrideAll seen ms es s = overrideAll seen' ms' es s := by
  induction es generalizing s with
  | nil => rfl
  | cons e es ih =>
    rw [overrideAll, overrideAll, h e List.mem_cons_self]
    exact congrArg _ (funext (ih fun f hf => h f (List.mem_cons_of_mem e hf)))

/-- A field that cannot be read fails the whole record. -/
theorem overrideAll_eq_none {seen : List Text} {ms : List (Text × Value)} (he : e ∈ es)
    (hnone : ∀ s, e.override seen ms s = none) (s : σ) : overrideAll seen ms es s = none := by
  induction es generalizing s with
  | nil => simp at he
  | cons f es ih =>
    rw [overrideAll, Option.bind_eq_none_iff]
    rcases List.mem_cons.1 he with rfl | he
    · simp [hnone s]
    · exact fun s' _ => ih he s'

/-- The record that an object describes.  No other value describes one. -/
def ofValue? (es : List (RecordField σ)) (start : σ) : Value → Option σ
  | .object ms => overrideAll [] ms es start
  | _ => none

/-- What a field asks of a document: its key, and that the value can be read. -/
def wants (e : RecordField σ) : String × (Value → Prop) :=
  (e.key, fun v => (e.read v).isSome = true)

/-- A record can be read from a value exactly if the value fits its fields. -/
theorem isSome_ofValue? (es : List (RecordField σ)) (start : σ) (v : Value) :
    (ofValue? es start v).isSome = true ↔ Fits (es.map wants) v := by
  cases v with
  | object ms =>
    simp [ofValue?, Fits, Settings.isObject, Settings.membersOf, isSome_overrideAll, wants]
  | _ => simp [ofValue?, Fits, Settings.isObject]

/-! ### One member -/

/-- The values of a key are those of the members that have it, in their order. -/
theorem valuesOf_cons (key : String) (k : Text) (v : Value) (ms : List (Text × Value)) :
    valuesOf key ((k, v) :: ms) =
      if k = key.toList then v :: valuesOf key ms else valuesOf key ms := by
  simp only [valuesOf, List.filter_cons, decide_eq_true_eq]
  split <;> rfl

/-- A member with a key gives one of its values. -/
theorem mem_valuesOf_self (key : String) (v : Value) (ms : List (Text × Value)) :
    v ∈ valuesOf key ((key.toList, v) :: ms) := by
  rw [valuesOf_cons, if_pos rfl]
  exact List.mem_cons_self

/-- A value of a key stays one when a member comes in front. -/
theorem mem_valuesOf_of_mem {key : String} {w : Value} {ms : List (Text × Value)}
    (hw : w ∈ valuesOf key ms) (m : Text × Value) : w ∈ valuesOf key (m :: ms) := by
  rw [valuesOf_cons]
  split
  · exact List.mem_cons_of_mem _ hw
  · exact hw

/-- A member with another key does not concern a field. -/
theorem override_of_ne {k : Text} (hk : k ≠ e.key.toList) (seen : List Text)
    (v : Value) (ms : List (Text × Value)) (s : σ) :
    e.override seen ((k, v) :: ms) s = e.override seen ms s := by
  simp only [override, valuesOf_cons, if_neg hk]

/-- That another key was seen does not concern a field. -/
theorem override_seen_of_ne {k : Text} (hk : k ≠ e.key.toList) (seen : List Text)
    (ms : List (Text × Value)) (s : σ) : e.override (k :: seen) ms s = e.override seen ms s := by
  have hcontains : (k :: seen).contains e.key.toList = seen.contains e.key.toList := by
    simp [hk.symm]
  simp only [override, hcontains]

/-- A field fails at a value that does not fit, and when its key comes again. -/
theorem override_eq_none {seen : List Text} {v : Value}
    (h : e.key.toList ∈ seen ∨ e.read v = none) (ms : List (Text × Value)) (s : σ) :
    e.override seen ((e.key.toList, v) :: ms) s = none := by
  simp only [override, valuesOf_cons]
  cases valuesOf e.key ms with
  | nil => rcases h with h | h <;> simp [h]
  | cons w ws => rfl

/-- Once its value is written, a field only wants its key not to come again. -/
theorem override_put {seen : List Text} {v : Value} {a : e.Content}
    (hseen : e.key.toList ∉ seen) (hv : e.read v = some a) (ms : List (Text × Value)) (s : σ) :
    e.override seen ((e.key.toList, v) :: ms) s =
      e.override (e.key.toList :: seen) ms (e.put a s) := by
  simp only [override, valuesOf_cons]
  cases valuesOf e.key ms with
  | nil => simp [hseen, hv]
  | cons w ws => cases ws <;> simp

/-- A field that is apart from another is read the same before and after the other is put. -/
theorem override_commute (h : Apart f e) (a : e.Content) (seen : List Text)
    (ms : List (Text × Value)) (s : σ) :
    f.override seen ms (e.put a s) = (f.override seen ms s).map (e.put a) := by
  unfold override
  split
  next => rfl
  next v _ =>
    split
    next => rfl
    next => cases f.read v <;> simp [h.2]
  next => rfl

/-- Writing a field at once is writing it in its turn. -/
theorem overrideAll_put (hapart : es.Pairwise Apart) (he : e ∈ es) {seen : List Text} {v : Value}
    {a : e.Content} (hseen : e.key.toList ∉ seen) (hv : e.read v = some a)
    (ms : List (Text × Value)) (s : σ) :
    overrideAll (e.key.toList :: seen) ms es (e.put a s) =
      overrideAll seen ((e.key.toList, v) :: ms) es s := by
  induction es generalizing s with
  | nil => simp at he
  | cons f es ih =>
    obtain ⟨hf, hapart⟩ := List.pairwise_cons.1 hapart
    rcases List.mem_cons.1 he with rfl | he
    · -- no field behind this one has its key
      have hlater : ∀ g ∈ es, e.key.toList ≠ g.key.toList := fun g hg heq =>
        (hf g hg).1 (String.toList_injective heq)
      simp only [overrideAll]
      rw [override_put hseen hv]
      refine congrArg _ (funext (overrideAll_congr fun g hg s => ?_))
      rw [override_seen_of_ne (hlater g hg), override_of_ne (hlater g hg)]
    · -- the field in front has another key, so the writing passes it
      have hne : e.key.toList ≠ f.key.toList := fun heq =>
        (hf e he).1 (String.toList_injective heq.symm)
      rw [overrideAll, overrideAll, override_seen_of_ne hne, override_of_ne hne,
        override_commute (hf e he), Option.bind_map]
      exact congrArg _ (funext (ih hapart he))

/-! ### The members of an object -/

/-- A slot is found by its key as its field is. -/
theorem find?_slot (es : List (RecordField σ)) (k : Text) :
    ((es.map slot).find? fun f => f.key = k) =
      (es.find? fun e => e.key.toList = k).map slot := by
  rw [List.find?_map]
  rfl

end RecordField

open RecordField

/-- One member whose key and colon have been passed, together with the comma in front of it. -/
theorem fieldMembers_member {σ : Type} (fields : List (Slot σ)) (fuel : Nat) (first : Bool)
    (seen : List Text) (s : σ) (k : Text) (ms : List Mark) :
    fieldMembers fields (fuel + 1) first seen s
        ((if first then [] else [.comma]) ++ textMark k :: .colon :: ms) =
      match fields.find? fun f => f.key = k with
      | some f =>
        if k ∈ seen then .error (.mismatch (.duplicate k))
        else f.read s ms >>= fun r => fieldMembers fields fuel false (k :: seen) r.1 r.2
      | none => (skip ms).mapError .fault >>= fieldMembers fields fuel false seen s := by
  cases first <;> rfl

/-- The members are read in their order, and the fields come out as if each had been looked up. -/
theorem toOption_fieldMembers {σ : Type} {es : List (RecordField σ)} (hapart : es.Pairwise Apart)
    {ms : List (Text × Value)} {fuel : Nat} (hfuel : ms.length < fuel)
    (hreads : ∀ e ∈ es, ∀ v ∈ valuesOf e.key ms, Reads e.reader e.read v)
    (first : Bool) (seen : List Text) (s : σ) (rest : List Mark) :
    (fieldMembers (es.map slot) fuel first seen s (membersRow first ms ++ rest)).toOption =
      (overrideAll seen ms es s).map fun s => (s, rest) := by
  induction ms generalizing fuel first seen s with
  | nil =>
    rw [overrideAll_members_nil]
    cases fuel with
    | zero => simp at hfuel
    | succ fuel => cases first <;> rfl
  | cons m ms ih =>
    obtain ⟨k, v⟩ := m
    cases fuel with
    | zero => simp at hfuel
    | succ fuel =>
      have hfuel' : ms.length < fuel := Nat.lt_of_succ_lt_succ hfuel
      have hlater : ∀ e ∈ es, ∀ w ∈ valuesOf e.key ms, Reads e.reader e.read w :=
        fun e he w hw => hreads e he w (mem_valuesOf_of_mem hw _)
      have hrow : membersRow first ((k, v) :: ms) ++ rest =
          (if first then [] else [.comma]) ++
            textMark k :: .colon :: (v.row ++ (membersRow false ms ++ rest)) := by
        simp [membersRow]
      rw [hrow, fieldMembers_member, find?_slot]
      cases hfind : es.find? fun e => e.key.toList = k with
      | none =>
        -- a key that is not known: the value is skipped, and no field has lost or gained anything
        have hunknown : ∀ e ∈ es, k ≠ e.key.toList := by
          intro e he heq
          simpa [heq] using List.find?_eq_none.1 hfind e he
        rw [Option.map_none, overrideAll_congr fun e he => override_of_ne (hunknown e he) seen v ms]
        simp only [skip_row]
        exact ih hfuel' hlater false seen s
      | some e =>
        have he : e ∈ es := List.mem_of_find?_eq_some hfind
        obtain rfl : e.key.toList = k := by simpa using List.find?_some hfind
        by_cases hseen : e.key.toList ∈ seen
        · rw [overrideAll_eq_none he (override_eq_none (.inl hseen) ms)]
          simp only [Option.map_some, if_pos hseen]
          rfl
        · have hread : Reads e.reader e.read v := hreads e he v (mem_valuesOf_self e.key v ms)
          simp only [Option.map_some, if_neg hseen, toOption_bind, slot, Slot.of, toOption_map]
          rw [hread]
          cases hv : e.read v with
          | none => rw [overrideAll_eq_none he (override_eq_none (.inr hv) ms)]; rfl
          | some a =>
            rw [← overrideAll_put hapart he hseen hv]
            exact ih hfuel' hlater false _ _

/-- A row of members has more marks than there are members. -/
theorem length_membersRow (ms : List (Text × Value)) (first : Bool) :
    ms.length < (membersRow first ms).length := by
  induction ms generalizing first with
  | nil => simp [membersRow]
  | cons m ms ih =>
    have hlater := ih false
    simp only [membersRow, List.length_append, List.length_cons]
    omega

/-- A value that is no array is read as a record field by field. -/
theorem reads_record {σ : Type} {es : List (RecordField σ)} (hapart : es.Pairwise Apart)
    (expected : Text) (start : σ) {v : Value} (hv : Settings.isArray v = false)
    (hreads : ∀ e ∈ es, ∀ w ∈ valuesOf e.key (Settings.membersOf v), Reads e.reader e.read w) :
    Reads (readRecord expected (es.map slot) start) (RecordField.ofValue? es start) v := by
  intro rest
  cases v with
  | object ms =>
    have hfuel : ms.length < (membersRow true ms ++ rest).length := by
      have hrow := length_membersRow ms true
      rw [List.length_append]
      omega
    exact toOption_fieldMembers hapart hfuel hreads true [] start rest
  | array vs => simp [Settings.isArray] at hv
  | number x => exact toOption_wrongType expected (.number x) rest
  | boolean b => exact toOption_wrongType expected (.boolean b) rest
  | _ => rfl

end ScriptWorkbench.Json
