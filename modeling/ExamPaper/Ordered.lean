/-!
# Lists of entries in the order of their keys

An insertion keeps the entries in order and replaces what was under the key. The laws say what a
look-up finds afterwards; they need no order of the entries before.
-/

namespace ExamPaper

namespace Ordered

variable {κ α : Type} [BEq κ] [LT κ] [DecidableLT κ]

/-- The entries with `value` under `key`, in place of what was under that key. -/
def insert (key : κ) (value : α) : List (κ × α) → List (κ × α)
  | [] => [(key, value)]
  | (other, old) :: rest =>
    if key == other then (key, value) :: rest
    else if key < other then (key, value) :: (other, old) :: rest
    else (other, old) :: insert key value rest

theorem lookup_insert_self [LawfulBEq κ] (key : κ) (value : α) (es : List (κ × α)) :
    (insert key value es).lookup key = some value := by
  induction es with
  | nil => simp [insert]
  | cons e es ih =>
    obtain ⟨other, old⟩ := e
    simp only [insert]
    split
    · simp
    · rename_i h
      split
      · simp
      · simp only [List.lookup_cons, Bool.eq_false_iff.2 h, ih]

theorem lookup_insert_of_ne [LawfulBEq κ] {key other : κ} (h : other ≠ key) (value : α)
    (es : List (κ × α)) :
    (insert key value es).lookup other = es.lookup other := by
  have hb : (other == key) = false := by simpa using h
  induction es with
  | nil => simp [insert, h]
  | cons e es ih =>
    obtain ⟨third, old⟩ := e
    simp only [insert]
    split
    · rename_i heq
      obtain rfl := LawfulBEq.eq_of_beq heq
      simp [List.lookup_cons, hb]
    · split
      · simp [List.lookup_cons, hb]
      · simp only [List.lookup_cons, ih]

end Ordered

end ExamPaper
