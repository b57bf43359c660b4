/-
# Places in an ordered answer

An answer is ordered by keys.  Where the keys of two rows are the same, either of
them may come first, and another query over the same rows may put the other one
first.

* `OrderedBy` : an order the keys allow;
* `Sorter` : a choice of one;
* `ahead`, `level` : how many rows are strictly before a row, and on a level with it;
* `OrderedBy.position` : which places the keys leave to a row;
-/
import Mathlib.Data.List.Sort

namespace Rankings

variable {α : Type*}

/-! ## Orders -/

/-- The rows in an order in which each row leads the later ones. -/
structure OrderedBy (leads : α → α → Bool) (rows answer : List α) : Prop where
  perm : answer.Perm rows
  ordered : answer.Pairwise fun a b => leads a b = true

/-- A choice among the orders. -/
structure Sorter (leads : α → α → Bool) where
  order : List α → List α
  ordered : ∀ rows, OrderedBy leads rows (order rows)

/-- The rows strictly before a row. -/
def ahead (leads : α → α → Bool) (rows : List α) (a : α) : ℕ :=
  rows.countP fun b => ! leads a b

/-- The rows on a level with a row, itself included. -/
def level (leads : α → α → Bool) (rows : List α) (a : α) : ℕ :=
  rows.countP fun b => leads a b && leads b a

/-! ## Places -/

section Places

variable {leads : α → α → Bool}

/-- The earlier rows are strictly before a row or on a level with it. -/
theorem ahead_add_level {l : List α} {a : α} (h : ∀ b ∈ l, leads b a = true) :
    ahead leads l a + level leads l a = l.length := by
  induction l with
  | nil => rfl
  | cons b l ih =>
      have hb : leads b a = true := h b List.mem_cons_self
      have hl := ih fun c hc => h c (List.mem_cons_of_mem b hc)
      unfold ahead level at hl ⊢
      rw [List.countP_cons, List.countP_cons, List.length_cons, hb]
      cases hab : leads a b with
      | true =>
          simp only [Bool.not_true, Bool.and_self, Bool.false_eq_true, if_false, if_true]
          omega
      | false =>
          simp only [Bool.not_false, Bool.and_true, Bool.false_eq_true, if_false, if_true]
          omega

/-- A row leads the rows that are not strictly before it. -/
theorem ahead_eq_zero {l : List α} {a : α} (h : ∀ b ∈ l, leads a b = true) :
    ahead leads l a = 0 := by
  apply List.countP_eq_zero.mpr
  intro b hb
  rw [h b hb]
  decide

/-- **The places the keys leave to a row.**  All rows strictly before it come first, and
rows on a level with it may. -/
theorem OrderedBy.position {rows answer : List α} (h : OrderedBy leads rows answer)
    (hrefl : ∀ a, leads a a = true) {i : ℕ} (hi : i < answer.length) :
    ahead leads rows answer[i] ≤ i ∧
      i < ahead leads rows answer[i] + level leads rows answer[i] := by
  have hsplit : answer.take i ++ answer[i] :: answer.drop (i + 1) = answer := by
    rw [List.getElem_cons_drop hi, List.take_append_drop]
  have hlength : (answer.take i).length = i := by
    rw [List.length_take]
    omega
  have hordered := h.ordered
  rw [← hsplit] at hordered
  obtain ⟨-, hlater, hearlier⟩ := List.pairwise_append.mp hordered
  have hrows (p : α → Bool) : rows.countP p =
      (answer.take i).countP p + ((answer[i] :: answer.drop (i + 1)).countP p) := by
    rw [← List.countP_append, hsplit]
    exact (h.perm.countP_eq p).symm
  have hbefore : ahead leads (answer.take i) answer[i] + level leads (answer.take i) answer[i] =
      (answer.take i).length := ahead_add_level fun b hb => hearlier b hb _ List.mem_cons_self
  have hafter : ahead leads (answer[i] :: answer.drop (i + 1)) answer[i] = 0 := by
    apply ahead_eq_zero
    intro b hb
    rcases List.mem_cons.mp hb with rfl | hb
    · exact hrefl _
    · exact (List.pairwise_cons.mp hlater).1 b hb
  have hself : 0 < level leads (answer[i] :: answer.drop (i + 1)) answer[i] := by
    apply List.countP_pos_iff.mpr
    refine ⟨answer[i], List.mem_cons_self, ?_⟩
    rw [hrefl, Bool.and_self]
  have hahead : ahead leads rows answer[i] = ahead leads (answer.take i) answer[i] +
      ahead leads (answer[i] :: answer.drop (i + 1)) answer[i] := hrows _
  have hlevel : level leads rows answer[i] = level leads (answer.take i) answer[i] +
      level leads (answer[i] :: answer.drop (i + 1)) answer[i] := hrows _
  constructor
  · omega
  · omega

end Places

/-! ## A sorter -/

/-- Insertion keeps the rows in the order they came in, where the keys leave it open. -/
def Sorter.insertion (leads : α → α → Bool) (htotal : ∀ a b, leads a b = true ∨ leads b a = true)
    (htrans : ∀ a b c, leads a b = true → leads b c = true → leads a c = true) : Sorter leads where
  order rows := rows.insertionSort fun a b => leads a b = true
  ordered rows :=
    have : Std.Total fun a b => leads a b = true := ⟨htotal⟩
    have : IsTrans α fun a b => leads a b = true := ⟨htrans⟩
    ⟨List.perm_insertionSort _ rows, List.pairwise_insertionSort _ rows⟩

/-- The other way round, rows the keys do not tell apart come in the opposite order. -/
def Sorter.reversed {leads : α → α → Bool} (sorter : Sorter leads) : Sorter leads where
  order rows := sorter.order rows.reverse
  ordered rows :=
    ⟨(sorter.ordered rows.reverse).perm.trans (List.reverse_perm rows),
      (sorter.ordered rows.reverse).ordered⟩

/-! ## The greatest of a list -/

section Greatest

variable {β : Type*} [LE β] [Max β] [Std.IsLinearOrder β] [Std.LawfulOrderMax β]

theorem mem_of_max? {l : List β} {b : β} (h : l.max? = some b) : b ∈ l ∧ ∀ c ∈ l, c ≤ b :=
  List.max?_eq_some_iff.mp h

/-- The greatest value does not depend on the order. -/
theorem max?_perm {l l' : List β} (h : l.Perm l') : l.max? = l'.max? := by
  apply Option.ext
  intro b
  rw [List.max?_eq_some_iff, List.max?_eq_some_iff, h.mem_iff]
  constructor
  · rintro ⟨hb, hall⟩
    exact ⟨hb, fun c hc => hall c (h.mem_iff.mpr hc)⟩
  · rintro ⟨hb, hall⟩
    exact ⟨hb, fun c hc => hall c (h.mem_iff.mp hc)⟩

theorem max?_append {l l' : List β} {b b' : β} (h : l.max? = some b) (h' : l'.max? = some b') :
    (l ++ l').max? = some (max b b') := by
  obtain ⟨hb, hall⟩ := mem_of_max? h
  obtain ⟨hb', hall'⟩ := mem_of_max? h'
  apply List.max?_eq_some_iff.mpr
  constructor
  · rcases Std.MaxEqOr.max_eq_or b b' with hmax | hmax
    · rw [hmax]
      exact List.mem_append_left l' hb
    · rw [hmax]
      exact List.mem_append_right l hb'
  · intro c hc
    rcases List.mem_append.mp hc with hc | hc
    · exact Std.le_trans (hall c hc) Std.left_le_max
    · exact Std.le_trans (hall' c hc) Std.right_le_max

end Greatest

end Rankings
