import ScriptWorkbench.CommandLine.Invocation
import ScriptWorkbench.Proofs.Lexeme.Partition
import ScriptWorkbench.Proofs.Text.Literals
import ScriptWorkbench.Proofs.Text.Places

/-!
# Reading a token list back

A token list has one line for each token, and no token breaks its line (`lineFeed_notMem_tokenRow`):
names of classes are plain words, and a quoted literal has no line feed.  The first tab of a line
stands behind the name, so each line reads back as the class and the text of its token
(`readTokenLine?_tokenRow`), and the whole list as those of all tokens
(`tokenList_reads`).
-/

set_option autoImplicit false

namespace ScriptWorkbench

/-- Lines that were written one after the other, each with a line feed behind it. -/
theorem Text.lines_rows {rows : List Text} (hrows : ∀ row ∈ rows, '\n' ∉ row) :
    Text.lines (rows.flatMap (· ++ ['\n'])) = rows ++ [[]] := by
  induction rows with
  | nil => rfl
  | cons row rows ih =>
    obtain ⟨hrow, hlater⟩ := List.forall_mem_cons.1 hrows
    rw [List.flatMap_cons, List.append_assoc, List.singleton_append, lines_append hrow, ih hlater,
      List.cons_append]

namespace CommandLine

/-! ## One line -/

/-- The line of a token without its line feed. -/
def tokenRow (t : Token) : Text :=
  t.kind.name ++ '\t' :: t.text.quoted

/-- The list has one row for each token, and every row ends in a line feed. -/
theorem tokenList_eq (s : Scheme) (source : Text) :
    tokenList s source = ((s.tokens source).map tokenRow).flatMap (· ++ ['\n']) := by
  rw [List.flatMap_map]
  rfl

/-- The name of a class holds nothing that separates columns or rows. -/
theorem name_plain (k : TokenClass) : '\t' ∉ k.name ∧ '\n' ∉ k.name := by
  cases k <;> decide

/-- A row is a single line, whatever the token holds. -/
theorem lineFeed_notMem_tokenRow (t : Token) : '\n' ∉ tokenRow t := by
  simp [tokenRow, (name_plain t.kind).2, Text.lineFeed_notMem_quoted]

/-- The line of a token reads back as its class and its text. -/
theorem readTokenLine?_tokenRow (t : Token) :
    readTokenLine? (tokenRow t) = some (t.kind, t.text) := by
  have hname : ∀ c ∈ t.kind.name, decide (c ≠ '\t') = true := by
    intro c hc
    apply decide_eq_true
    rintro rfl
    exact (name_plain t.kind).1 hc
  have hfront : (tokenRow t).takeWhile (· ≠ '\t') = t.kind.name := by
    rw [tokenRow, List.takeWhile_append_of_pos hname]
    simp
  have hback : (tokenRow t).dropWhile (· ≠ '\t') = '\t' :: t.text.quoted := by
    rw [tokenRow, List.dropWhile_append_of_pos hname]
    simp
  simp only [readTokenLine?, hback, hfront, TokenClass.ofName?_name, Text.unquote?_quoted]
  rfl

/-! ## The list -/

/-- Rows that are read back give the classes and the texts of the tokens they were made of. -/
theorem readTokenList?_rows (tokens : List Token) :
    readTokenList? ((tokens.map tokenRow).flatMap (· ++ ['\n'])) =
      some (tokens.map fun t => (t.kind, t.text)) := by
  have hrows : ∀ row ∈ tokens.map tokenRow, '\n' ∉ row :=
    List.forall_mem_map.2 fun t _ => lineFeed_notMem_tokenRow t
  have hread : (tokens.map tokenRow).mapM readTokenLine? =
      some (tokens.map fun t => (t.kind, t.text)) := by
    induction tokens with
    | nil => rfl
    | cons t tokens ih =>
      rw [List.map_cons, List.mapM_cons, readTokenLine?_tokenRow,
        ih (List.forall_mem_cons.1 hrows).2]
      rfl
  rw [readTokenList?, Text.lines_rows hrows, List.getLast?_concat, if_pos rfl,
    List.dropLast_concat, hread]

/-- The command `tokens` prints one line for each token of its file and nothing else, whatever the
keyword table is and whatever characters the tokens have.  No line has a line feed but the one at
its end, and each reads as the name of a class, a tab and a quoted literal: the class and the text
of its token.  So the list reads back as the classes and the texts of the tokens, and the texts make
up the file. -/
theorem tokenList_reads (settings : Settings) (source : Text) :
    let tokens := Lexeme.tokenize settings.scheme.keywords source
    let list := tokenList settings.scheme source
    (∀ (read : Text → Except Host.Fault Text) temporary arguments i,
      Invocation.ofArguments arguments = .ok i → i.command = "tokens".toList →
      Settings.load read temporary i.settings = .ok settings → read i.file = .ok source →
      respond read temporary arguments = .ok (.done ⟨0, list, []⟩)) ∧
    (∃ rows : List Text, list = rows.flatMap (· ++ ['\n']) ∧ (∀ row ∈ rows, '\n' ∉ row) ∧
      rows.map readTokenLine? = tokens.map fun t => some (t.kind, t.text)) ∧
    readTokenList? list = some (tokens.map fun t => (t.kind, t.text)) ∧
    (tokens.map fun t => (t.kind, t.text)).flatMap Prod.snd = source := by
  intro tokens list
  have hlist : list = (tokens.map tokenRow).flatMap (· ++ ['\n']) :=
    tokenList_eq settings.scheme source
  refine ⟨?_, ⟨tokens.map tokenRow, hlist, ?_, ?_⟩, ?_, ?_⟩
  · intro read temporary arguments i hi hcommand hsettings hsource
    rw [respond_eq_perform hi hsettings hsource, perform, hcommand, if_neg (by decide), if_pos rfl]
  · exact List.forall_mem_map.2 fun t _ => lineFeed_notMem_tokenRow t
  · rw [List.map_map]
    exact List.map_congr_left fun t _ => readTokenLine?_tokenRow t
  · rw [hlist]
    exact readTokenList?_rows tokens
  · rw [List.flatMap_map]
    exact Lexeme.flatMap_text_tokensFrom 0 source

/-- A line feed inside a comment, a quote, and a backslash at the end of a word. -/
example : tokenList {} "val \"\\\n/*\n".toList =
    ("keyword\t\"val\"\nwhitespace\t\" \"\nother\t\"\\\"\\\\\"\nwhitespace\t\"\\n\"\n" ++
      "comment\t\"/*\\n\"\n").toList := by
  decide +kernel

end CommandLine

end ScriptWorkbench
