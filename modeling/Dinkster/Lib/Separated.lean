import Mathlib

/-! Texts as words with separators between them: a first word, then separators each followed by a
word. Splitting and joining are inverse, and splitting goes through concatenation at a separator. -/
namespace Separated

universe u
variable {α : Type u} (sep : α → Bool)

def split : List α → List α × List (α × List α)
  | [] => ([],[])
  | c :: rest =>
    if sep c then ([],(c,(split rest).1) :: (split rest).2)
    else (c :: (split rest).1,(split rest).2)

def join (first : List α) (rest : List (α × List α)) : List α :=
  first ++ rest.flatMap fun e => e.1 :: e.2

def words (text : List α) : List (List α) := (split sep text).1 :: (split sep text).2.map (·.2)

def separators (text : List α) : List α := (split sep text).2.map (·.1)

theorem words_ne_nil (text : List α) : words sep text ≠ [] := List.cons_ne_nil _ _

theorem length_words (text : List α) :
    (words sep text).length = (separators sep text).length + 1 := by
  simp [words,separators]

theorem join_split (text : List α) : join (split sep text).1 (split sep text).2 = text := by
  induction text with
  | nil => rfl
  | cons c rest ih =>
    unfold split
    by_cases here : sep c = true
    · simpa [here,join] using ih
    · simpa [here,join] using ih

theorem word_inside {text word : List α} (inside : word ∈ words sep text) :
    ∀ c ∈ word, sep c = false := by
  induction text generalizing word with
  | nil =>
    obtain rfl : word = [] := by simpa [words,split] using inside
    exact nofun
  | cons c rest ih =>
    unfold words split at inside
    by_cases here : sep c = true
    · simp only [here,if_true,List.map_cons,List.mem_cons] at inside
      rcases inside with rfl | inside
      · exact nofun
      · exact ih (by simpa [words] using inside)
    · simp only [here,if_false,Bool.false_eq_true,List.mem_cons] at inside
      rcases inside with rfl | later
      · refine List.forall_mem_cons.mpr ⟨by simpa using here,ih ?_⟩
        exact List.mem_cons_self
      · exact ih (List.mem_cons_of_mem _ later)

theorem split_append_word {word : List α} (plain : ∀ c ∈ word, sep c = false) (text : List α) :
    split sep (word ++ text) = (word ++ (split sep text).1,(split sep text).2) := by
  induction word with
  | nil => rfl
  | cons c rest ih =>
    obtain ⟨here,later⟩ := List.forall_mem_cons.mp plain
    rw [List.cons_append,split,ih later]
    simp [here]

theorem split_join {first : List α} {rest : List (α × List α)}
    (plain : ∀ c ∈ first, sep c = false)
    (proper : ∀ e ∈ rest, sep e.1 = true ∧ ∀ c ∈ e.2, sep c = false) :
    split sep (join first rest) = (first,rest) := by
  rw [join,split_append_word sep plain]
  suffices later : split sep (rest.flatMap fun e => e.1 :: e.2) = ([],rest) by simp [later]
  induction rest with
  | nil => rfl
  | cons e rest ih =>
    obtain ⟨⟨edge,word⟩,others⟩ := List.forall_mem_cons.mp proper
    rw [List.flatMap_cons,List.cons_append,split,split_append_word sep word,ih others]
    simp [edge]

theorem split_cut (text : List α) {c : α} (edge : sep c = true) (rest : List α) :
    split sep (text ++ c :: rest) =
      ((split sep text).1,(split sep text).2 ++ (c,(split sep rest).1) :: (split sep rest).2) := by
  induction text with
  | nil => simp [split,edge]
  | cons d others ih =>
    rw [List.cons_append,split,split,ih]
    by_cases here : sep d = true
    · simp [here]
    · simp [here]

theorem words_cut (text : List α) {c : α} (edge : sep c = true) (rest : List α) :
    words sep (text ++ c :: rest) = words sep text ++ words sep rest := by
  simp [words,split_cut sep text edge]

theorem separators_cut (text : List α) {c : α} (edge : sep c = true) (rest : List α) :
    separators sep (text ++ c :: rest) = separators sep text ++ c :: separators sep rest := by
  simp [separators,split_cut sep text edge]

theorem text_ext {text text' : List α} (same : words sep text = words sep text')
    (same' : separators sep text = separators sep text') : text = text' := by
  obtain ⟨first,later⟩ := List.cons.inj same
  have rest : (split sep text).2 = (split sep text').2 := by
    have zipped := congrArg₂ List.zip same' later
    simpa [separators,List.zip_map'] using zipped
  rw [← join_split sep text,← join_split sep text',first,rest]

theorem text_ext_uniform {text text' : List α} {c : α} (same : words sep text = words sep text')
    (uniform : ∀ d ∈ separators sep text, d = c) (uniform' : ∀ d ∈ separators sep text', d = c) :
    text = text' := by
  refine text_ext sep same ?_
  have sizes : (separators sep text).length = (separators sep text').length := by
    have equal := congrArg List.length same
    rw [length_words,length_words] at equal
    exact Nat.succ.inj equal
  rw [List.eq_replicate_of_mem uniform,List.eq_replicate_of_mem uniform',sizes]

/-- With one and the same separator, a text continues another one after a separator if and only if
its words continue the other's. -/
theorem cut_prefix_iff {text text' : List α} {c : α} (edge : sep c = true)
    (uniform : ∀ d ∈ separators sep text, d = c) (uniform' : ∀ d ∈ separators sep text', d = c) :
    text ++ [c] <+: text' ↔ words sep text <+: words sep text' ∧
      (words sep text).length < (words sep text').length := by
  constructor
  · rintro ⟨rest,rfl⟩
    rw [List.append_assoc,List.singleton_append,words_cut sep text edge]
    refine ⟨List.prefix_append _ _,?_⟩
    rw [List.length_append]
    exact Nat.lt_add_of_pos_right (List.length_pos_iff.mpr (words_ne_nil sep rest))
  · rintro ⟨⟨others,whole⟩,longer⟩
    cases others with
    | nil =>
      rw [List.append_nil] at whole
      rw [whole] at longer
      exact absurd longer (Nat.lt_irrefl _)
    | cons word others =>
      have inside {w : List α} (member : w ∈ word :: others) : ∀ d ∈ w, sep d = false :=
        word_inside sep (whole ▸ List.mem_append_right _ member)
      have split_rest : split sep (join word (others.map fun w => (c,w))) =
          (word,others.map fun w => (c,w)) := by
        refine split_join sep (inside List.mem_cons_self) fun e member => ?_
        obtain ⟨w,member',rfl⟩ := List.mem_map.mp member
        exact ⟨edge,inside (List.mem_cons_of_mem _ member')⟩
      have longer_text : text ++ c :: join word (others.map fun w => (c,w)) = text' := by
        refine text_ext_uniform sep ?_ (fun d member => ?_) uniform'
        · rw [words_cut sep text edge,← whole]
          simp [words,split_rest,Function.comp_def]
        · rw [separators_cut sep text edge,List.mem_append,List.mem_cons] at member
          rcases member with old | rfl | new
          · exact uniform d old
          · rfl
          · rw [separators,split_rest,List.map_map] at new
            obtain ⟨_,_,rfl⟩ := List.mem_map.mp new
            rfl
      exact ⟨join word (others.map fun w => (c,w)),by simpa using longer_text⟩

theorem length_join (first : List α) (rest : List (α × List α)) :
    (join first rest).length = first.length + (rest.map fun e => e.2.length + 1).sum := by
  simp [join,List.length_flatMap]

theorem intercalate_eq (c : α) (first : List α) (rest : List (List α)) :
    List.intercalate [c] (first :: rest) = join first (rest.map fun word => (c,word)) := by
  induction rest generalizing first with
  | nil => simp [join]
  | cons word rest ih =>
    rw [List.intercalate_cons_cons,ih]
    simp [join]

end Separated
