/-
# Fields between separators

A text is split where a character separates, and the parts that are empty are left out.

* `fields_eq_cons_iff` : where the first field is;
* `fields_finer` : fields that two kinds of separators agree on;
* `fields_congr` : the separators that matter are those of the text.
-/
import Mathlib.Data.List.TakeWhile

namespace Fields

variable {α : Type*} {p q : α → Bool} {sep : α} {blanks word rest text : List α}

/-- The parts between separators that are not empty. -/
def fields (p : α → Bool) (text : List α) : List (List α) :=
  (text.splitOnP p).filter fun part => ! part.isEmpty

@[simp] theorem fields_nil : fields p [] = [] := rfl

theorem fields_append_cons (hsep : p sep = true) (text rest : List α) :
    fields p (text ++ sep :: rest) = fields p text ++ fields p rest := by
  rw [fields, List.splitOnP_append_cons text rest hsep, List.filter_append]
  rfl

theorem fields_cons (hsep : p sep = true) (rest : List α) :
    fields p (sep :: rest) = fields p rest := fields_append_cons hsep [] rest

/-- A field by itself. -/
theorem fields_word (hne : word ≠ []) (hword : ∀ c ∈ word, p c = false) :
    fields p word = [word] := by
  rw [fields, List.splitOnP_eq_singleton hword]
  cases word with
  | nil => exact absurd rfl hne
  | cons c word => rfl

theorem fields_blanks (hblanks : ∀ c ∈ blanks, p c = true) (text : List α) :
    fields p (blanks ++ text) = fields p text := by
  induction blanks with
  | nil => rfl
  | cons c blanks ih =>
      obtain ⟨hc, hblanks⟩ := List.forall_mem_cons.mp hblanks
      rw [List.cons_append, fields_cons hc, ih hblanks]

/-- The first field of a text. -/
theorem fields_append (hblanks : ∀ c ∈ blanks, p c = true) (hne : word ≠ [])
    (hword : ∀ c ∈ word, p c = false) (hrest : ∀ c ∈ rest.head?, p c = true) :
    fields p (blanks ++ (word ++ rest)) = word :: fields p rest := by
  rw [fields_blanks hblanks]
  cases rest with
  | nil => rw [List.append_nil, fields_word hne hword, fields_nil]
  | cons sep rest =>
      have hsep : p sep = true := hrest sep rfl
      rw [fields_append_cons hsep, fields_word hne hword, fields_cons hsep]
      rfl

/-- **Where the first field is.** -/
theorem fields_eq_cons_iff {words : List (List α)} :
    fields p text = word :: words ↔ ∃ blanks rest, text = blanks ++ (word ++ rest) ∧
      (∀ c ∈ blanks, p c = true) ∧ word ≠ [] ∧ (∀ c ∈ word, p c = false) ∧
        (∀ c ∈ rest.head?, p c = true) ∧ fields p rest = words := by
  constructor
  · intro h
    have htext : text.takeWhile p ++ ((text.dropWhile p).takeWhile (fun c => ! p c) ++
        (text.dropWhile p).dropWhile fun c => ! p c) = text := by
      rw [List.takeWhile_append_dropWhile, List.takeWhile_append_dropWhile]
    have hblanks : ∀ c ∈ text.takeWhile p, p c = true := fun c hc => List.mem_takeWhile_imp hc
    have hword : ∀ c ∈ (text.dropWhile p).takeWhile fun c => ! p c, p c = false := by
      intro c hc
      simpa using List.mem_takeWhile_imp hc
    have hrest : ∀ c ∈ ((text.dropWhile p).dropWhile fun c => ! p c).head?, p c = true := by
      intro c hc
      have hhead := List.head?_dropWhile_not (fun c => ! p c) (text.dropWhile p)
      rw [Option.mem_def.mp hc] at hhead
      simpa using hhead
    have hne : (text.dropWhile p).takeWhile (fun c => ! p c) ≠ [] := by
      intro hnil
      -- what follows the blanks is empty, and so there is no field
      have hdrop : text.dropWhile p = [] := by
        cases hcases : text.dropWhile p with
        | nil => rfl
        | cons c tail =>
            have hhead := List.head?_dropWhile_not p text
            rw [hcases] at hhead hnil
            simp only [List.head?_cons] at hhead
            rw [List.takeWhile_cons_of_pos (by rw [hhead]; rfl)] at hnil
            cases hnil
      rw [← htext, hdrop, fields_blanks hblanks] at h
      cases h
    have hsplit := fields_append hblanks hne hword hrest
    rw [htext, h] at hsplit
    obtain ⟨rfl, rfl⟩ := List.cons.inj hsplit
    exact ⟨_, _, htext.symm, hblanks, hne, hword, hrest, rfl⟩
  · rintro ⟨blanks, rest, rfl, hblanks, hne, hword, hrest, rfl⟩
    exact fields_append hblanks hne hword hrest

/-- With more separators a text has the same first fields, if they hold none. -/
theorem fields_finer (hpq : ∀ c, p c = true → q c = true) {words words' : List (List α)}
    (hwords : ∀ word ∈ words, ∀ c ∈ word, q c = false) (h : fields p text = words ++ words') :
    ∃ words'', fields q text = words ++ words'' := by
  induction words generalizing text with
  | nil => exact ⟨fields q text, rfl⟩
  | cons word words ih =>
      obtain ⟨hword, hwords⟩ := List.forall_mem_cons.mp hwords
      obtain ⟨blanks, rest, rfl, hblanks, hne, -, hrest, hfields⟩ := fields_eq_cons_iff.mp h
      obtain ⟨words'', hwords''⟩ := ih hwords hfields
      refine ⟨words'', ?_⟩
      rw [fields_append (fun c hc => hpq c (hblanks c hc)) hne hword
        (fun c hc => hpq c (hrest c hc)), hwords'']
      rfl

/-- The separators that matter are those of the text. -/
theorem fields_congr (h : ∀ c ∈ text, p c = q c) : fields p text = fields q text := by
  have hsplit : text.splitOnP p = text.splitOnP q := by
    induction text with
    | nil => rfl
    | cons c text ih =>
        obtain ⟨hc, htext⟩ := List.forall_mem_cons.mp h
        rw [List.splitOnP_cons_eq_if_modifyHead, List.splitOnP_cons_eq_if_modifyHead, hc, ih htext]
  rw [fields, fields, hsplit]

end Fields
