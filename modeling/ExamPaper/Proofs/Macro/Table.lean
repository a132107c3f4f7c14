import ExamPaper.Macro.Table
import ExamPaper.Proofs.Macro.Key

/-!
# Tables of macros, entry by entry

An entry declares a macro by its key, and the text of its value is the body (`Declaring`); null is
an empty body. The spelling of the key makes no difference to the name.

A table is read entry by entry, whether the entries stand in one mapping or in several: nothing is
read of a mapping but its entries, in order. Each entry either takes the place of its name in the
table or ends the reading.

> However the entries are grouped, the result is the same. In a table that is read, each name has
> the macro of the last entry that declares it, and where none is read, the error is that of the
> first entry that declares no macro (`ofValue_entries`).
-/

namespace ExamPaper

namespace MacroTable

/-! ## One entry -/

/-- The text that a value is as a body: none for null, and that of a text, a number or a truth
value. -/
inductive BodyText : Value → String → Prop where
  | null : BodyText .null ""
  | bool (b : Bool) : BodyText (.bool b) (if b then "true" else "false")
  | number (n : Number) : BodyText (.number n) n.text
  | text (s : String) : BodyText (.text s) s

open MacroDefinition in
/-- What an entry declares, or why it is refused. -/
inductive Declaring : Value → Value → Except MacroDefinitionError MacroDefinition → Prop where
  | declares {key : String} {body : Value} {text name : String} {params : List String}
      (hbody : BodyText body text) (hkey : Declares name params key) :
      Declaring (.text key) body (.ok (declared name params text))
  | badKey {key : String} {body : Value} {text : String} (hbody : BodyText body text)
      (hkey : ¬ ∃ name params, Declares name params key) :
      Declaring (.text key) body (.error (.badKey key))
  | badBody {key : String} {body : Value} (hbody : ∀ text, ¬ BodyText body text) :
      Declaring (.text key) body (.error (.badBody key))
  | notText {key body : Value} (hkey : ∀ text, key ≠ .text text) :
      Declaring key body (.error (.badKey (Document.shape key)))

/-- An entry whose body has a text is read as its key and that text are. -/
theorem entry_of_bodyText {body : Value} {text : String} (h : BodyText body text) (key : String) :
    entry (.text key) body = MacroDefinition.parse key text := by
  cases h <;> rfl

/-- A key that is no text is refused, and its shape is shown. -/
theorem entry_of_not_text {key : Value} (h : ∀ text, key ≠ .text text) (body : Value) :
    entry key body = .error (.badKey (Document.shape key)) := by
  cases key with
  | text s => exact absurd rfl (h s)
  | _ => rfl

/-- A body has a text, or the entry is refused whatever its key is. -/
theorem bodyText_or_badBody (body : Value) : (∃ text, BodyText body text) ∨
    (∀ text, ¬ BodyText body text) ∧
      ∀ key : String, entry (.text key) body = .error (.badBody key) := by
  cases body with
  | null => exact .inl ⟨_, .null⟩
  | bool b => exact .inl ⟨_, .bool b⟩
  | number n => exact .inl ⟨_, .number n⟩
  | text s => exact .inl ⟨_, .text s⟩
  | list _ => exact .inr ⟨nofun, fun _ => rfl⟩
  | mapping _ => exact .inr ⟨nofun, fun _ => rfl⟩
  | tagged _ _ => exact .inr ⟨nofun, fun _ => rfl⟩

/-- **What an entry declares.** An entry is read as the macro that its key and the text of its body
declare, or refused for the one reason there is. -/
theorem entry_eq_iff {key body : Value} {result : Except MacroDefinitionError MacroDefinition} :
    entry key body = result ↔ Declaring key body result := by
  constructor
  · rintro rfl
    by_cases hkey : ∃ text, key = .text text
    · obtain ⟨key, rfl⟩ := hkey
      rcases bodyText_or_badBody body with ⟨text, hbody⟩ | ⟨hbody, hbad⟩
      · rw [entry_of_bodyText hbody]
        cases hparse : MacroDefinition.parse key text with
        | ok m =>
          obtain ⟨name, params, hdeclares, rfl⟩ := MacroDefinition.parse_eq_ok_iff.mp hparse
          exact .declares hbody hdeclares
        | error e =>
          obtain ⟨rfl, hnone⟩ := MacroDefinition.parse_eq_error_iff.mp hparse
          exact .badKey hbody hnone
      · rw [hbad key]
        exact .badBody hbody
    · have hnot : ∀ text, key ≠ .text text := fun text heq => hkey ⟨text, heq⟩
      rw [entry_of_not_text hnot]
      exact .notText hnot
  · intro h
    cases h with
    | declares hbody hkey =>
      rw [entry_of_bodyText hbody]
      exact MacroDefinition.parse_eq_ok_iff.mpr ⟨_, _, hkey, rfl⟩
    | badKey hbody hkey =>
      rw [entry_of_bodyText hbody]
      exact MacroDefinition.parse_eq_error_iff.mpr ⟨rfl, hkey⟩
    | badBody hbody =>
      rcases bodyText_or_badBody body with ⟨text, htext⟩ | ⟨-, hbad⟩
      · exact absurd htext (hbody text)
      · exact hbad _
    | notText hkey => exact entry_of_not_text hkey _

/-- The macro of an entry has the name that the key declares: `A`, `((A))` and `((A, x))` are keys
of one name. -/
theorem name_of_entry {key body : Value} {m : MacroDefinition} (h : entry key body = .ok m) :
    ∃ text params, key = .text text ∧ MacroDefinition.Declares m.name params text := by
  cases entry_eq_iff.mp h with
  | @declares key _ text name params _ hkey =>
    rw [MacroDefinition.name_declared]
    exact ⟨key, params, rfl, hkey⟩

/-! ## Which entry counts -/

/-- No entry declares a macro of this name. -/
def Undeclared (name : String) (entries : Entries) : Prop :=
  ∀ e ∈ entries, ∀ m, entry e.1 e.2 = .ok m → m.name ≠ name

/-- The last entry that declares a macro of this name declares this one. -/
inductive LastDeclared (name : String) (m : MacroDefinition) : Entries → Prop where
  | here {key body : Value} {rest : Entries} : entry key body = .ok m → m.name = name →
      Undeclared name rest → LastDeclared name m ((key, body) :: rest)
  | later {first : Value × Value} {rest : Entries} : LastDeclared name m rest →
      LastDeclared name m (first :: rest)

/-- The first entry that declares no macro is refused with this error. -/
inductive FirstRefused (e : MacroDefinitionError) : Entries → Prop where
  | here {key body : Value} {rest : Entries} : entry key body = .error e →
      FirstRefused e ((key, body) :: rest)
  | later {key body : Value} {rest : Entries} {m : MacroDefinition} : entry key body = .ok m →
      FirstRefused e rest → FirstRefused e ((key, body) :: rest)

/-! ## Entries one after another -/

theorem addEntries_cons_ok {key body : Value} {m : MacroDefinition} (h : entry key body = .ok m)
    (table : MacroTable) (rest : Entries) :
    addEntries table ((key, body) :: rest) = addEntries (table.add m) rest := by
  rw [addEntries, h]

theorem addEntries_cons_error {key body : Value} {e : MacroDefinitionError}
    (h : entry key body = .error e) (table : MacroTable) (rest : Entries) :
    addEntries table ((key, body) :: rest) = .error e := by
  rw [addEntries, h]

/-- Entries are added in order, so a list of entries can be cut anywhere. -/
theorem addEntries_append (more : Entries) : ∀ (entries : Entries) (table : MacroTable),
    addEntries table (entries ++ more) = addEntries table entries >>= (addEntries · more) := by
  intro entries
  induction entries with
  | nil => intro table; rfl
  | cons first entries ih =>
    obtain ⟨key, body⟩ := first
    intro table
    rw [List.cons_append]
    cases h : entry key body with
    | error e => rw [addEntries_cons_error h, addEntries_cons_error h]; rfl
    | ok m => rw [addEntries_cons_ok h, addEntries_cons_ok h, ih]

/-- Several mappings are read as one. -/
theorem addItems_mapping (groups : List Entries) : ∀ table : MacroTable,
    addItems table (groups.map .mapping) = addEntries table groups.flatten := by
  induction groups with
  | nil => intro table; rfl
  | cons group groups ih =>
    intro table
    rw [List.map_cons, List.flatten_cons, addEntries_append, addItems]
    cases addEntries table group with
    | error e => rfl
    | ok table => exact ih table

/-! ## What is found in a table -/

/-- A macro that is added is found under its name, and every other name as before. -/
theorem get?_add (table : MacroTable) (m : MacroDefinition) (name : String) :
    (table.add m).get? name = if name = m.name then some m else table.get? name :=
  NameMap.get?_insert table m.name name m

/-- Entries that do not declare a name leave it as it is. -/
theorem get?_of_undeclared {name : String} {entries : Entries} (h : Undeclared name entries) :
    ∀ {table found : MacroTable}, addEntries table entries = .ok found →
      found.get? name = table.get? name := by
  induction entries with
  | nil =>
    intro table found hfound
    rw [Except.ok.inj hfound]
  | cons first entries ih =>
    obtain ⟨hfirst, hentries⟩ := List.forall_mem_cons.mp h
    intro table found hfound
    cases hm : entry first.1 first.2 with
    | error e =>
      rw [addEntries_cons_error hm] at hfound
      exact absurd hfound (by simp)
    | ok m =>
      rw [addEntries_cons_ok hm] at hfound
      rw [ih hentries hfound, get?_add, if_neg (Ne.symm (hfirst m hm))]

/-- A name has the macro that is declared last. -/
theorem get?_of_lastDeclared {name : String} {m : MacroDefinition} {entries : Entries}
    (h : LastDeclared name m entries) : ∀ {table found : MacroTable},
      addEntries table entries = .ok found → found.get? name = some m := by
  induction h with
  | here hm hname hrest =>
    intro table found hfound
    rw [addEntries_cons_ok hm] at hfound
    rw [get?_of_undeclared hrest hfound, get?_add, if_pos hname.symm]
  | @later first rest _ ih =>
    intro table found hfound
    obtain ⟨key, body⟩ := first
    cases hm : entry key body with
    | error e =>
      rw [addEntries_cons_error hm] at hfound
      exact absurd hfound (by simp)
    | ok m =>
      rw [addEntries_cons_ok hm] at hfound
      exact ih hfound

/-- Of the entries that declare a name one is the last, if there are any. -/
theorem lastDeclared_or_undeclared (name : String) (entries : Entries) :
    (∃ m, LastDeclared name m entries) ∨ Undeclared name entries := by
  induction entries with
  | nil => exact .inr (List.forall_mem_nil _)
  | cons first entries ih =>
    obtain ⟨m, hm⟩ | hentries := ih
    · exact .inl ⟨m, .later hm⟩
    · by_cases h : ∃ m, entry first.1 first.2 = .ok m ∧ m.name = name
      · obtain ⟨m, hm, hname⟩ := h
        exact .inl ⟨m, .here hm hname hentries⟩
      · exact .inr (List.forall_mem_cons.mpr ⟨fun m hm hname => h ⟨m, hm, hname⟩, hentries⟩)

/-- In a table that is read, a name has the macro of the last entry that declares it. -/
theorem get?_ofValue {entries : Entries} {table : MacroTable}
    (h : ofValue (.mapping entries) = .ok table) (name : String) :
    (∀ m, table.get? name = some m ↔ LastDeclared name m entries) ∧
      (table.get? name = none ↔ Undeclared name entries) := by
  obtain ⟨m, hm⟩ | hnone := lastDeclared_or_undeclared name entries
  · have hfound : table.get? name = some m := get?_of_lastDeclared hm h
    refine ⟨fun m' => ⟨fun hm' => ?_, fun hm' => get?_of_lastDeclared hm' h⟩, fun hnone => ?_,
      fun hnone => ?_⟩
    · obtain rfl := Option.some.inj (hfound.symm.trans hm')
      exact hm
    · exact absurd (hfound.symm.trans hnone) (by simp)
    · exact (get?_of_undeclared hnone h).trans (NameMap.get?_empty name)
  · have hfound : table.get? name = none :=
      (get?_of_undeclared hnone h).trans (NameMap.get?_empty name)
    refine ⟨fun m' => ⟨fun hm' => ?_, fun hm' => get?_of_lastDeclared hm' h⟩, fun _ => hnone,
      fun _ => hfound⟩
    exact absurd (hfound.symm.trans hm') (by simp)

/-! ## The error of a table -/

/-- Reading ends at the first entry that is refused, with the error of that entry. -/
theorem addEntries_eq_error_iff {e : MacroDefinitionError} {entries : Entries} :
    ∀ {table : MacroTable}, addEntries table entries = .error e ↔ FirstRefused e entries := by
  induction entries with
  | nil => exact ⟨nofun, nofun⟩
  | cons first entries ih =>
    obtain ⟨key, body⟩ := first
    intro table
    cases hm : entry key body with
    | error e' =>
      rw [addEntries_cons_error hm]
      constructor
      · intro h
        exact .here (hm.trans (congrArg _ (Except.error.inj h)))
      · intro h
        cases h with
        | here hrefused => exact congrArg _ (Except.error.inj (hm.symm.trans hrefused))
        | later hread _ => exact absurd (hm.symm.trans hread) (by simp)
    | ok m =>
      rw [addEntries_cons_ok hm, ih]
      constructor
      · exact .later hm
      · intro h
        cases h with
        | here hrefused => exact absurd (hm.symm.trans hrefused) (by simp)
        | later _ hrest => exact hrest

/-- **What a table of macros holds.** A list of mappings is read as the one mapping of all their
entries, however these are grouped. If a table is read, it has under each name the macro of the last
entry that declares a macro of that name, in whatever spelling, and nothing if there is no such
entry. No table is read just if some entry declares no macro, and the error is that of the first. -/
theorem ofValue_entries (entries : Entries) :
    (∀ groups : List Entries, groups.flatten = entries →
      ofValue (.list (groups.map .mapping)) = ofValue (.mapping entries)) ∧
    (∀ table, ofValue (.mapping entries) = .ok table → ∀ name,
      (∀ m, table.get? name = some m ↔ LastDeclared name m entries) ∧
      (table.get? name = none ↔ Undeclared name entries)) ∧
    ∀ e, ofValue (.mapping entries) = .error e ↔ FirstRefused e entries := by
  refine ⟨?_, fun _ => get?_ofValue, fun _ => addEntries_eq_error_iff⟩
  rintro groups rfl
  exact addItems_mapping groups ∅

example : (ofValue (.mapping [(.text "A", .text "one"), (.text "((A, x))", .text "x!"),
      (.text "((A))", .number (.int 3))])).map (·.get? "A") =
    .ok (some (.constant "A" "3")) := by cbv

end MacroTable

end ExamPaper
