import ExamPaper.Proofs.Text.Blank
import ExamPaper.Tag.Query
import Mathlib.Data.List.Induction

/-!
# How a tag query is written

An operator is written as its sign. A tag is written word by word, with a join after each word but
the first, so that `unit one .` is the tag `unit one`, whatever the words are: a join takes the two
words before it off a stack and puts one back, and never looks at what they say.

> Tokens written in this way, with blanks between the words, are read as these tokens. A text is
> refused just if before one of its joins the other words outnumber the joins by less than two
> (`parse_spelled`).
-/

namespace ExamPaper

namespace TagToken

/-- A word that can be part of a tag. -/
def IsTagWord (word : String) : Prop := Text.IsWord word.toList ∧ word ≠ "."

/-- The words by which a token is written. A tag of one word must not be the sign of an operator. -/
inductive Spelled : TagToken → List String → Prop where
  | not : Spelled .not ["!"]
  | and : Spelled .and ["&"]
  | or : Spelled .or ["|"]
  | tag {first : String} {more : List String} : (∀ word ∈ first :: more, IsTagWord word) →
      (more = [] → first ∉ ["!", "&", "|"]) →
      Spelled (.tag (" ".intercalate (first :: more)))
        (first :: more.flatMap fun word => [word, "."])

/-- A word other than the three signs is a tag. -/
theorem ofWord_of_notMem {word : String} (h : word ∉ ["!", "&", "|"]) :
    ofWord word = .tag word := by
  unfold ofWord
  split
  · exact absurd (by simp) h
  · exact absurd (by simp) h
  · exact absurd (by simp) h
  · rfl

end TagToken

namespace TagQuery

open TagToken

/-! ## Reading what is written -/

/-- A word other than the join is put on the words before it. -/
theorem pushWord?_of_ne {word : String} (h : word ≠ ".") (pending : List String) :
    pushWord? pending word = some (word :: pending) := if_neg h

/-- A join puts the two words before it together. -/
theorem pushWord?_join (last before : String) (pending : List String) :
    pushWord? (last :: before :: pending) "." = some ((before ++ " " ++ last) :: pending) := rfl

/-- A phrase is put together from its first word on. -/
theorem pushWords_joins {more : List String} (h : ∀ word ∈ more, IsTagWord word) :
    ∀ (first : String) (pending : List String),
      (more.flatMap fun word => [word, "."]).foldlM pushWord? (first :: pending) =
        some (" ".intercalate (first :: more) :: pending) := by
  induction more with
  | nil => intro first pending; simp
  | cons word more ih =>
    obtain ⟨hword, hmore⟩ := List.forall_mem_cons.mp h
    intro first pending
    have hjoined : " ".intercalate (first :: word :: more) =
        " ".intercalate ((first ++ " " ++ word) :: more) := by
      rw [String.intercalate_cons_append, String.intercalate_cons_cons]
    rw [List.flatMap_cons, hjoined, ← ih hmore, List.cons_append, List.cons_append,
      List.nil_append, List.foldlM_cons, pushWord?_of_ne hword.2]
    rfl

/-- What a token is written by leaves one word on the stack, which stands for the token. -/
theorem pushWords_spelled {token : TagToken} {words : List String} (h : Spelled token words)
    (pending : List String) :
    ∃ word, words.foldlM pushWord? pending = some (word :: pending) ∧ ofWord word = token := by
  cases h with
  | not => exact ⟨"!", rfl, rfl⟩
  | and => exact ⟨"&", rfl, rfl⟩
  | or => exact ⟨"|", rfl, rfl⟩
  | @tag first more hwords hsign =>
    obtain ⟨hfirst, hmore⟩ := List.forall_mem_cons.mp hwords
    refine ⟨" ".intercalate (first :: more), ?_, ofWord_of_notMem ?_⟩
    · rw [List.foldlM_cons, pushWord?_of_ne hfirst.2]
      exact pushWords_joins hmore first pending
    · cases more with
      | nil => rw [String.intercalate_singleton]; exact hsign rfl
      | cons word more =>
        -- a phrase of two words has a space in it, and a sign has none
        intro hmem
        have hspace : ' ' ∈ (" ".intercalate (first :: word :: more)).toList := by simp
        simp only [List.mem_cons, List.not_mem_nil, or_false] at hmem
        rcases hmem with heq | heq | heq <;> (rw [heq] at hspace; exact absurd hspace (by decide))

/-- The words of spelled tokens become these tokens. -/
theorem pushWords_flatten {tokens : List TagToken} {spellings : List (List String)}
    (h : List.Forall₂ Spelled tokens spellings) : ∀ pending : List String,
    ∃ words : List String,
      spellings.flatten.foldlM pushWord? pending = some (words.reverse ++ pending) ∧
      words.map ofWord = tokens := by
  induction h with
  | nil => intro pending; exact ⟨[], rfl, rfl⟩
  | cons hspelled _ ih =>
    intro pending
    obtain ⟨word, hword, htoken⟩ := pushWords_spelled hspelled pending
    obtain ⟨words, hwords, htokens⟩ := ih (word :: pending)
    refine ⟨word :: words, ?_, by rw [List.map_cons, htoken, htokens]⟩
    rw [List.flatten_cons, List.foldlM_append, hword]
    show _ = some _
    rw [List.reverse_cons, List.append_assoc]
    exact hwords

/-- A text that spells tokens is read as them. -/
theorem parse_of_spelled {source : String} {tokens : List TagToken}
    {spellings : List (List String)} (h : List.Forall₂ Spelled tokens spellings)
    (hsource : Text.words source = spellings.flatten) : parse source = .ok ⟨source, tokens⟩ := by
  obtain ⟨words, hwords, htokens⟩ := pushWords_flatten h []
  unfold parse joinWords?
  rw [hsource, hwords]
  simp [htokens]

/-! ## Joins that have too little to join -/

/-- By how much the other words outnumber the joins. -/
def surplus (words : List String) : Int := words.countP (· ≠ ".") - words.count "."

/-- One of the joins comes where the other words before it do not outnumber the joins by two. -/
def Dangles (words : List String) : Prop :=
  ∃ before after, words = before ++ "." :: after ∧ surplus before < 2

/-- A word more is one more to join, a join one less. -/
theorem surplus_concat (words : List String) (word : String) :
    surplus (words ++ [word]) = surplus words + if word = "." then -1 else 1 := by
  unfold surplus
  rw [List.countP_append, List.count_append]
  by_cases h : word = "."
  · subst h
    simp
    omega
  · simp [h]
    omega

/-- A join dangles if one before it does, or if there are fewer than two words for it. -/
theorem dangles_concat_iff {words : List String} {word : String} :
    Dangles (words ++ [word]) ↔ Dangles words ∨ word = "." ∧ surplus words < 2 := by
  constructor
  · rintro ⟨before, after, hwords, hsurplus⟩
    rcases after.eq_nil_or_concat with rfl | ⟨after, last, rfl⟩
    · obtain ⟨rfl, hword⟩ := List.append_inj' hwords rfl
      exact .inr ⟨List.singleton_inj.mp hword, hsurplus⟩
    · rw [List.concat_eq_append, ← List.cons_append, ← List.append_assoc] at hwords
      exact .inl ⟨before, after, (List.append_inj' hwords rfl).1, hsurplus⟩
  · rintro (⟨before, after, rfl, hsurplus⟩ | ⟨rfl, hsurplus⟩)
    · exact ⟨before, after ++ [word], by simp, hsurplus⟩
    · exact ⟨words, [], rfl, hsurplus⟩

/-- Words are joined from the left. -/
theorem joinWords?_concat (words : List String) (word : String) :
    joinWords? (words ++ [word]) = joinWords? words >>= (pushWord? · word) := by
  unfold joinWords?
  rw [List.foldlM_append]
  refine bind_congr fun pending => ?_
  rw [List.foldlM_cons]
  exact bind_pure (pushWord? pending word)

/-- As long as no join dangles, as many words are pending as the other words outnumber the joins. -/
theorem joinWords?_spec (words : List String) :
    match joinWords? words with
    | some pending => surplus words = pending.length ∧ ¬ Dangles words
    | none => Dangles words := by
  -- the last word is read with what the others leave pending
  induction words using List.reverseRecOn with
  | nil => exact ⟨rfl, fun ⟨_, _, h, _⟩ => absurd h (by simp)⟩
  | append_singleton words word ih =>
    rw [joinWords?_concat, surplus_concat, dangles_concat_iff]
    cases hbefore : joinWords? words with
    | none =>
      rw [hbefore] at ih
      exact .inl ih
    | some pending =>
      rw [hbefore] at ih
      obtain ⟨hsurplus, hdangles⟩ := ih
      show match pushWord? pending word with
        | some pending => _
        | none => _
      by_cases hword : word = "."
      · subst hword
        rcases pending with - | ⟨last, - | ⟨before, pending⟩⟩
        · exact .inr ⟨rfl, by rw [hsurplus]; decide⟩
        · exact .inr ⟨rfl, by rw [hsurplus, List.length_singleton]; decide⟩
        · rw [pushWord?_join]
          simp only [List.length_cons] at hsurplus ⊢
          refine ⟨by simp; omega, ?_⟩
          rintro (h | ⟨-, h⟩)
          · exact hdangles h
          · omega
      · rw [pushWord?_of_ne hword]
        simp only [List.length_cons]
        refine ⟨by simp [hword]; omega, ?_⟩
        rintro (h | ⟨h, -⟩)
        · exact hdangles h
        · exact hword h

/-- Joining fails just if a join dangles. -/
theorem joinWords?_eq_none_iff {words : List String} : joinWords? words = none ↔ Dangles words := by
  have hspec := joinWords?_spec words
  cases hjoined : joinWords? words with
  | none =>
    rw [hjoined] at hspec
    exact ⟨fun _ => hspec, fun _ => rfl⟩
  | some pending =>
    rw [hjoined] at hspec
    exact ⟨fun h => absurd h (by simp), fun h => absurd h hspec.2⟩

/-- A query is refused just if a join dangles, with its whole text. -/
theorem parse_error_iff {source : String} {e : TagQueryError} :
    parse source = .error e ↔ e = .danglingJoin source ∧ Dangles (Text.words source) := by
  rw [← joinWords?_eq_none_iff]
  unfold parse
  cases joinWords? (Text.words source) with
  | none => simp [eq_comm]
  | some pending => simp

/-- **How a query is written.** Tokens that are spelled word by word are read as these tokens,
whatever blanks stand between the words and around them. Every text is refused just if a join
dangles among its words, for having too little to join. -/
theorem parse_spelled (source : String) :
    (∀ tokens spellings, List.Forall₂ Spelled tokens spellings →
      Text.Spaced (spellings.flatten.map String.toList) source.toList →
      parse source = .ok ⟨source, tokens⟩) ∧
    ∃ words : List String, Text.Spaced (words.map String.toList) source.toList ∧
      ∀ e, parse source = .error e ↔ e = .danglingJoin source ∧
        ∃ before after, words = before ++ "." :: after ∧ surplus before < 2 :=
  ⟨fun _ _ hspelled hspaced => parse_of_spelled hspelled (Text.words_eq_iff.mpr hspaced),
    Text.words source, Text.words_eq_iff.mp rfl, fun _ => parse_error_iff⟩

/-- A tag of two words, one of which is the sign of an operator, and an operator. -/
theorem parse_spelled_unitNot :
    parse " unit\t! .  ! " = .ok ⟨" unit\t! .  ! ", [.tag "unit !", .not]⟩ := by
  have hwords : ∀ word ∈ ["unit", "!"], IsTagWord word := by
    simp [IsTagWord, Text.IsWord, isBlank]
  have hphrase : Spelled (.tag "unit !") ["unit", "!", "."] := .tag hwords nofun
  exact (parse_spelled _).1 [.tag "unit !", .not] [["unit", "!", "."], ["!"]]
    (.cons hphrase (.cons .not .nil)) (Text.words_eq_iff.mp (by cbv))

end TagQuery

end ExamPaper
