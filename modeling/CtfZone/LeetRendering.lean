/-
# Leet renderings

`render_generated_flag` walks a template with a cursor, and counts the letters it may replace
as it meets them; `leet_positions` filters the characters of the whole template.  Both see the
placeholder of the random token and the braces in the same way, so the bit `k` of a mask stands
for the position `k`.

* `Stands` : what is so at the cursor, and `Stands.renderFrom_eq` : what the loop makes of the
  rest of the template;
* `renderFromChecked` : the loop with the shift as a machine has it, which never overflows;
* `alike_of_lowered` : two renderings that agree after lower-casing are the same;
* `leet_rendering_exact` : the whole of it.
-/
import CtfZone.FlagPolicy

namespace CtfZone

open Journal

/-! ## Positions of characters -/

/-- The offsets are those of the cursor and behind it. -/
theorem le_of_mem_charIndices {cursor : ℕ} {text : List Char} :
    ∀ p ∈ charIndices cursor text, cursor ≤ p.1 := by
  induction text generalizing cursor with
  | nil => exact nofun
  | cons c text ih =>
    rw [charIndices, List.forall_mem_cons]
    refine ⟨le_rfl, fun p hp => ?_⟩
    have := ih p hp
    omega

/-- No two characters have one offset. -/
theorem charIndices_nodup (cursor : ℕ) (text : List Char) :
    ((charIndices cursor text).map Prod.fst).Nodup := by
  induction text generalizing cursor with
  | nil => exact List.nodup_nil
  | cons c text ih =>
    rw [charIndices, List.map_cons, List.nodup_cons]
    refine ⟨?_, ih _⟩
    intro hmem
    obtain ⟨p, hp, heq⟩ := List.mem_map.mp hmem
    have hle := le_of_mem_charIndices p hp
    have hpos := c.utf8Size_pos
    omega

/-- So an offset tells its character. -/
theorem charIndices_unique {cursor : ℕ} {text : List Char} {p p' : ℕ × Char}
    (hp : p ∈ charIndices cursor text) (hp' : p' ∈ charIndices cursor text)
    (h : p.1 = p'.1) : p = p' :=
  List.inj_on_of_nodup_map (charIndices_nodup cursor text) hp hp' h

theorem le_of_mem_tokenIndices {cursor skip : ℕ} {text : List Char} :
    ∀ i ∈ tokenIndices cursor skip text, cursor ≤ i := by
  induction text generalizing cursor skip with
  | nil =>
    rcases skip with _ | skip
    · exact nofun
    · exact nofun
  | cons c text ih =>
    intro i hi
    rcases skip with _ | skip
    · rw [tokenIndices] at hi
      split at hi
      · rcases List.mem_cons.mp hi with rfl | hi
        · exact le_rfl
        · have := ih i hi
          omega
      · have := ih i hi
        omega
    · have := ih i hi
      omega

/-- The letters of a text that may be replaced. -/
def positionsFrom (scope : ℕ × ℕ) (inside : ℕ → Bool) (cursor : ℕ) (text : List Char) : List ℕ :=
  ((charIndices cursor text).filter fun p =>
    inRange scope p.1 && ! inside p.1 && (leetReplacement p.2).isSome).map Prod.fst

theorem positionsFrom_cons (scope : ℕ × ℕ) (inside : ℕ → Bool) (cursor : ℕ) (c : Char)
    (text : List Char) : positionsFrom scope inside cursor (c :: text) =
      (if inRange scope cursor && ! inside cursor && (leetReplacement c).isSome then [cursor]
        else []) ++ positionsFrom scope inside (cursor + c.utf8Size) text := by
  rw [positionsFrom, charIndices, List.filter_cons]
  split
  · rfl
  · rfl

/-- `inside_random_token` ahead of the cursor; `skip` characters of a placeholder are still to
come. -/
def insideFrom (cursor skip : ℕ) (text : List Char) (index : ℕ) : Bool :=
  index < cursor + skip || (tokenIndices cursor skip text).any fun start =>
    start ≤ index && index < start + randomTokenPlaceholder.length

/-! ## The loop -/

/-- What the loop makes of a character: the token stands for the first one of a placeholder. -/
def cell (starts positions : List ℕ) (inside : ℕ → Bool) (token : List Char) (mask : ℕ)
    (p : ℕ × Char) : List Char :=
  if p.1 ∈ starts then token
  else if inside p.1 then []
  else if p.1 ∈ positions ∧ mask.testBit (positions.idxOf p.1) then
    [(leetReplacement p.2).getD p.2]
  else [p.2]

/-- Ahead of the cursor everything is as the whole template has it, and the positions behind it
are counted. -/
structure Stands (scope : ℕ × ℕ) (starts positions : List ℕ) (inside : ℕ → Bool)
    (cursor skip leetIndex : ℕ) (text : List Char) : Prop where
  plain : ∀ c ∈ text.take skip, c.utf8Size = 1
  started : ∀ i, cursor ≤ i → (i ∈ starts ↔ i ∈ tokenIndices cursor skip text)
  covered : ∀ i, cursor ≤ i → inside i = insideFrom cursor skip text i
  counted : ∃ passed, positions = passed ++ positionsFrom scope inside cursor text ∧
    (∀ i ∈ passed, i < cursor) ∧ passed.length = leetIndex

namespace Stands

variable {scope : ℕ × ℕ} {starts positions : List ℕ} {inside : ℕ → Bool}
  {cursor skip leetIndex mask : ℕ} {token : Option (List Char)} {c : Char} {text : List Char}

theorem beyond (c : Char) {cursor i : ℕ} (h : cursor + c.utf8Size ≤ i) :
    cursor < i := by
  have := c.utf8Size_pos
  omega

/-- A character that is not counted. -/
theorem counted_next (h : Stands scope starts positions inside cursor skip leetIndex (c :: text))
    (hnot : (inRange scope cursor && ! inside cursor && (leetReplacement c).isSome) = false) :
    ∃ passed, positions = passed ++ positionsFrom scope inside (cursor + c.utf8Size) text ∧
      (∀ i ∈ passed, i < cursor + c.utf8Size) ∧ passed.length = leetIndex := by
  obtain ⟨passed, hpassed, hlt, hlength⟩ := h.counted
  refine ⟨passed, ?_, fun i hi => ?_, hlength⟩
  · rw [hpassed, positionsFrom_cons, hnot]
    rfl
  · have := hlt i hi
    omega

/-- Inside a placeholder. -/
theorem in_skip
    (h : Stands scope starts positions inside cursor (skip + 1) leetIndex (c :: text)) :
    cursor ∉ starts ∧ inside cursor = true ∧
      Stands scope starts positions inside (cursor + c.utf8Size) skip leetIndex text := by
  have hsize : c.utf8Size = 1 := h.plain c (by simp)
  have hinside : inside cursor = true := by
    rw [h.covered cursor le_rfl, insideFrom, Bool.or_eq_true]
    exact Or.inl (decide_eq_true (by omega))
  refine ⟨?_, hinside, ⟨?_, ?_, ?_, ?_⟩⟩
  · intro hmem
    have hle := le_of_mem_tokenIndices cursor ((h.started cursor le_rfl).mp hmem)
    rw [h.started cursor le_rfl, tokenIndices] at hmem
    have := le_of_mem_tokenIndices cursor hmem
    omega
  · intro d hd
    exact h.plain d (by rw [List.take_succ_cons]; exact List.mem_cons_of_mem c hd)
  · intro i hi
    exact h.started i (beyond c hi).le
  · intro i hi
    rw [h.covered i (beyond c hi).le, insideFrom, insideFrom, tokenIndices,
      show cursor + (skip + 1) = cursor + c.utf8Size + skip from by omega]
  · exact h.counted_next (by rw [hinside]; simp)

theorem placeholder_cons :
    randomTokenPlaceholder = '\x7b' :: randomTokenPlaceholder.tail := by decide

/-- At the start of a placeholder. -/
theorem at_token (h : Stands scope starts positions inside cursor 0 leetIndex (c :: text))
    (hopens : randomTokenPlaceholder.isPrefixOf (c :: text) = true) :
    cursor ∈ starts ∧ Stands scope starts positions inside (cursor + c.utf8Size)
      (randomTokenPlaceholder.length - 1) leetIndex text := by
  obtain ⟨rest, hrest⟩ := List.isPrefixOf_iff_prefix.mp hopens
  rw [placeholder_cons, List.cons_append] at hrest
  obtain ⟨hc, htail⟩ := List.cons.inj hrest
  have hsize : c.utf8Size = 1 := by rw [← hc]; decide
  have htokens : tokenIndices cursor 0 (c :: text) = cursor ::
      tokenIndices (cursor + c.utf8Size) (randomTokenPlaceholder.length - 1) text := by
    rw [tokenIndices, if_pos hopens]
  have hstart : cursor ∈ starts := by
    rw [h.started cursor le_rfl, htokens]
    exact List.mem_cons_self
  have hinside : inside cursor = true := by
    have hlength : randomTokenPlaceholder.length = 16 := rfl
    rw [h.covered cursor le_rfl, insideFrom, htokens, List.any_cons]
    simp [hlength]
  refine ⟨hstart, ⟨?_, ?_, ?_, ?_⟩⟩
  · have hall : randomTokenPlaceholder.tail.all (fun c => c.utf8Size = 1) = true := by decide
    intro d hd
    rw [← htail, show randomTokenPlaceholder.length - 1 = randomTokenPlaceholder.tail.length
      from rfl, List.take_left] at hd
    simpa using List.all_eq_true.mp hall d hd
  · intro i hi
    rw [h.started i (beyond c hi).le, htokens, List.mem_cons]
    exact or_iff_right (beyond c hi).ne'
  · intro i hi
    have hlt := beyond c hi
    have hlength : randomTokenPlaceholder.length = 16 := rfl
    rw [h.covered i hlt.le, insideFrom, insideFrom, htokens, List.any_cons, ← Bool.or_assoc]
    congr 1
    rw [Bool.eq_iff_iff]
    simp only [Bool.or_eq_true, Bool.and_eq_true, decide_eq_true_eq, hlength]
    omega
  · exact h.counted_next (by rw [hinside]; simp)

/-- At any other character. -/
theorem at_plain (h : Stands scope starts positions inside cursor 0 leetIndex (c :: text))
    (hopens : randomTokenPlaceholder.isPrefixOf (c :: text) = false) :
    cursor ∉ starts ∧ inside cursor = false ∧
      ∀ leetIndex', (∃ passed,
          positions = passed ++ positionsFrom scope inside (cursor + c.utf8Size) text ∧
          (∀ i ∈ passed, i < cursor + c.utf8Size) ∧ passed.length = leetIndex') →
        Stands scope starts positions inside (cursor + c.utf8Size) 0 leetIndex' text := by
  have htokens : tokenIndices cursor 0 (c :: text) = tokenIndices (cursor + c.utf8Size) 0 text := by
    rw [tokenIndices, hopens]
    rfl
  have hahead : ∀ start ∈ tokenIndices (cursor + c.utf8Size) 0 text, cursor < start :=
    fun start hmem => beyond c (le_of_mem_tokenIndices start hmem)
  refine ⟨?_, ?_, fun leetIndex' hcounted => ⟨?_, ?_, ?_, hcounted⟩⟩
  · intro hmem
    rw [h.started cursor le_rfl, htokens] at hmem
    exact lt_irrefl cursor (hahead cursor hmem)
  · rw [h.covered cursor le_rfl, insideFrom, htokens, Bool.or_eq_false_iff]
    refine ⟨decide_eq_false (by omega), List.any_eq_false.mpr fun start hmem => ?_⟩
    have := hahead start hmem
    simp only [Bool.and_eq_true, decide_eq_true_eq]
    omega
  · simp
  · intro i hi
    rw [h.started i (beyond c hi).le, htokens]
  · intro i hi
    have hlt := beyond c hi
    rw [h.covered i hlt.le, insideFrom, insideFrom, htokens]
    congr 1
    rw [decide_eq_false (by omega), decide_eq_false (by omega)]

/-- A letter that may be replaced is the next of the positions. -/
theorem counted_at (h : Stands scope starts positions inside cursor 0 leetIndex (c :: text))
    (hcounted : (inRange scope cursor && ! inside cursor && (leetReplacement c).isSome) = true) :
    cursor ∈ positions ∧ positions.idxOf cursor = leetIndex ∧ leetIndex < positions.length ∧
      ∃ passed, positions = passed ++ positionsFrom scope inside (cursor + c.utf8Size) text ∧
        (∀ i ∈ passed, i < cursor + c.utf8Size) ∧ passed.length = leetIndex + 1 := by
  obtain ⟨passed, hpassed, hlt, hlength⟩ := h.counted
  rw [positionsFrom_cons, hcounted, if_pos rfl] at hpassed
  have hnot : cursor ∉ passed := fun hmem => lt_irrefl cursor (hlt cursor hmem)
  refine ⟨?_, ?_, ?_, passed ++ [cursor], ?_, ?_, ?_⟩
  · rw [hpassed]
    simp
  · rw [hpassed, List.idxOf_append_of_notMem hnot]
    simp [hlength]
  · rw [hpassed]
    simp only [List.length_append, List.length_cons]
    omega
  · rw [hpassed, List.append_assoc]
  · intro i hi
    have hpos := c.utf8Size_pos
    rcases List.mem_append.mp hi with hi | hi
    · have := hlt i hi
      omega
    · obtain rfl := List.mem_singleton.mp hi
      omega
  · rw [List.length_append, hlength, List.length_singleton]

/-- A character that is no such letter is none of them. -/
theorem not_counted_at (h : Stands scope starts positions inside cursor 0 leetIndex (c :: text))
    (hnot : (inRange scope cursor && ! inside cursor && (leetReplacement c).isSome) = false) :
    cursor ∉ positions := by
  obtain ⟨passed, hpassed, hlt, -⟩ := h.counted
  rw [hpassed, positionsFrom_cons, hnot, List.mem_append]
  rintro (hmem | hmem)
  · exact lt_irrefl cursor (hlt cursor hmem)
  · obtain ⟨p, hp, heq⟩ := List.mem_map.mp hmem
    have hle := le_of_mem_charIndices p (List.mem_of_mem_filter hp)
    have hpos := c.utf8Size_pos
    omega

/-- **What the loop makes of the rest of a template.** -/
theorem renderFrom_eq
    (h : Stands scope starts positions inside cursor skip leetIndex text) :
    renderFrom scope token (some mask) cursor skip leetIndex text =
      (charIndices cursor text).flatMap
        (cell starts positions inside (token.getD randomTokenPlaceholder) mask) := by
  induction text generalizing cursor skip leetIndex with
  | nil =>
    rcases skip with _ | skip
    · rfl
    · rfl
  | cons c text ih =>
    rw [charIndices, List.flatMap_cons]
    rcases skip with _ | skip
    · by_cases hopens : randomTokenPlaceholder.isPrefixOf (c :: text) = true
      · obtain ⟨hstart, hnext⟩ := h.at_token hopens
        rw [renderFrom, if_pos hopens, ih hnext, cell, if_pos hstart]
      · obtain ⟨hstart, hinside, hnext⟩ := h.at_plain (Bool.eq_false_iff.mpr hopens)
        rw [renderFrom, if_neg hopens, cell, if_neg hstart, hinside, if_neg Bool.false_ne_true]
        by_cases hrange : inRange scope cursor = true
        · rw [if_pos hrange]
          rcases hreplacement : leetReplacement c with _ | replacement
          · have hnot : (inRange scope cursor && ! inside cursor &&
                (leetReplacement c).isSome) = false := by simp [hreplacement]
            simp only [ih (hnext _ (h.counted_next hnot)), h.not_counted_at hnot, false_and,
              if_false, List.singleton_append]
          · have hcounted : (inRange scope cursor && ! inside cursor &&
                (leetReplacement c).isSome) = true := by simp [hreplacement, hrange, hinside]
            obtain ⟨hmem, hindex, -, hpassed⟩ := h.counted_at hcounted
            simp only [ih (hnext _ hpassed), hmem, hindex, true_and, Option.any_some,
              Option.getD_some]
            by_cases hbit : mask.testBit leetIndex = true
            · simp [hbit]
            · simp [hbit]
        · have hnot : (inRange scope cursor && ! inside cursor &&
              (leetReplacement c).isSome) = false := by simp [hrange]
          simp only [hrange, if_false, ih (hnext _ (h.counted_next hnot)), h.not_counted_at hnot,
            false_and, List.singleton_append, Bool.false_eq_true]
    · obtain ⟨hstart, hinside, hnext⟩ := h.in_skip
      rw [renderFrom, ih hnext, cell, if_neg hstart, if_pos hinside]
      rfl

end Stands

/-- The loop stands at the start of a template. -/
theorem stands_start (template : List Char) :
    Stands (leetScope template) (tokenIndices 0 0 template) (leetPositions template)
      (insideRandomToken template) 0 0 0 template := by
  refine ⟨by simp, fun i _ => Iff.rfl, fun i _ => ?_, [], rfl, by simp, rfl⟩
  rw [insideFrom, decide_eq_false (by omega), Bool.false_or]
  rfl

/-! ## Shifts -/

/-- The loop with the shift `1_u64 << leet_index` as a machine has it: it fails from 64 on. -/
def renderFromChecked (scope : ℕ × ℕ) (token : Option (List Char)) (mask : ℕ) :
    ℕ → ℕ → ℕ → List Char → Option (List Char)
  | _, _, _, [] => some []
  | cursor, skip + 1, leetIndex, c :: text =>
    renderFromChecked scope token mask (cursor + c.utf8Size) skip leetIndex text
  | cursor, 0, leetIndex, c :: text =>
    if randomTokenPlaceholder.isPrefixOf (c :: text) then
      (renderFromChecked scope token mask (cursor + c.utf8Size)
        (randomTokenPlaceholder.length - 1) leetIndex text).map
          (token.getD randomTokenPlaceholder ++ ·)
    else
      match (if inRange scope cursor then leetReplacement c else none) with
      | some replacement =>
        if leetIndex < 64 then
          (renderFromChecked scope token mask (cursor + c.utf8Size) 0 (leetIndex + 1) text).map
            ((if mask.testBit leetIndex then replacement else c) :: ·)
        else none
      | none =>
        (renderFromChecked scope token mask (cursor + c.utf8Size) 0 leetIndex text).map (c :: ·)

/-- A template with at most 64 positions overflows no shift. -/
theorem Stands.renderFromChecked_eq {scope : ℕ × ℕ} {starts positions : List ℕ}
    {inside : ℕ → Bool} {cursor skip leetIndex mask : ℕ} {token : Option (List Char)}
    {text : List Char} (h : Stands scope starts positions inside cursor skip leetIndex text)
    (hfew : positions.length ≤ 64) :
    renderFromChecked scope token mask cursor skip leetIndex text =
      some (renderFrom scope token (some mask) cursor skip leetIndex text) := by
  induction text generalizing cursor skip leetIndex with
  | nil =>
    rcases skip with _ | skip
    · rfl
    · rfl
  | cons c text ih =>
    rcases skip with _ | skip
    · by_cases hopens : randomTokenPlaceholder.isPrefixOf (c :: text) = true
      · obtain ⟨-, hnext⟩ := h.at_token hopens
        rw [renderFromChecked, renderFrom, if_pos hopens, if_pos hopens, ih hnext]
        rfl
      · obtain ⟨-, hinside, hnext⟩ := h.at_plain (Bool.eq_false_iff.mpr hopens)
        rw [renderFromChecked, renderFrom, if_neg hopens, if_neg hopens]
        rcases hreplacement : (if inRange scope cursor then leetReplacement c else none) with
          _ | replacement
        · have hnot : (inRange scope cursor && ! inside cursor &&
              (leetReplacement c).isSome) = false := by
            split at hreplacement
            · simp [hreplacement]
            · rename_i hrange
              simp [hrange]
          rw [ih (hnext _ (h.counted_next hnot))]
          rfl
        · have hcounted : (inRange scope cursor && ! inside cursor &&
              (leetReplacement c).isSome) = true := by
            split at hreplacement
            · rename_i hrange
              simp [hrange, hinside, hreplacement]
            · cases hreplacement
          obtain ⟨-, -, hlt, hpassed⟩ := h.counted_at hcounted
          simp only [show leetIndex < 64 from by omega, if_true, ih (hnext _ hpassed),
            Option.map_some, Option.any_some]
    · obtain ⟨-, -, hnext⟩ := h.in_skip
      rw [renderFromChecked, renderFrom, ih hnext]

/-! ## Faithful renderings -/

/-- What a character of a template becomes. -/
def leetCell (template token : List Char) (mask : ℕ) : ℕ × Char → List Char :=
  cell (tokenIndices 0 0 template) (leetPositions template) (insideRandomToken template) token
    mask

theorem leetPositions_nodup (template : List Char) : (leetPositions template).Nodup :=
  (charIndices_nodup 0 template).sublist (List.filter_sublist.map _)

/-- A position is that of a letter with a replacement, in the scope and outside of the
placeholders. -/
theorem mem_leetPositions_iff {template : List Char} {p : ℕ × Char}
    (hp : p ∈ charIndices 0 template) : p.1 ∈ leetPositions template ↔
      inRange (leetScope template) p.1 = true ∧ insideRandomToken template p.1 = false ∧
        (leetReplacement p.2).isSome = true := by
  constructor
  · intro hmem
    obtain ⟨p', hfilter, heq⟩ := List.mem_map.mp hmem
    obtain ⟨hp', hkept⟩ := List.mem_filter.mp hfilter
    rw [charIndices_unique hp' hp heq] at hkept
    simp only [Bool.and_eq_true, Bool.not_eq_true'] at hkept
    exact ⟨hkept.1.1, hkept.1.2, hkept.2⟩
  · rintro ⟨hrange, hinside, hletter⟩
    refine List.mem_map.mpr ⟨p, List.mem_filter.mpr ⟨hp, ?_⟩, rfl⟩
    rw [hrange, hinside, hletter]
    rfl

theorem starts_inside {template : List Char} {i : ℕ} (h : i ∈ tokenIndices 0 0 template) :
    insideRandomToken template i = true := by
  refine List.any_eq_true.mpr ⟨i, h, ?_⟩
  have hlength : randomTokenPlaceholder.length = 16 := rfl
  simp [hlength]

/-- A rendering that shows a mask, and is the template everywhere else. -/
structure Faithful (template token : List Char) (mask : ℕ) (rendered : List Char) : Prop where
  /-- It is the template, character by character. -/
  whole : rendered = (charIndices 0 template).flatMap (leetCell template token mask)
  /-- The bit `k` replaces the letter at the position `k`. -/
  bit : ∀ (k : ℕ) (p : ℕ × Char), p ∈ charIndices 0 template →
    (leetPositions template)[k]? = some p.1 → ∃ replacement,
      leetReplacement p.2 = some replacement ∧
      leetCell template token mask p = [if mask.testBit k then replacement else p.2]
  /-- Every other character outside of the placeholders stays. -/
  plain : ∀ p ∈ charIndices 0 template, p.1 ∉ leetPositions template →
    insideRandomToken template p.1 = false → leetCell template token mask p = [p.2]
  /-- And so does everything that is not between the braces. -/
  outside : ∀ p ∈ charIndices 0 template, inRange (leetScope template) p.1 = false →
    insideRandomToken template p.1 = false → leetCell template token mask p = [p.2]
  /-- A placeholder becomes the token, whatever the mask is. -/
  placeholder : ∀ p ∈ charIndices 0 template, insideRandomToken template p.1 = true →
    leetCell template token mask p = if p.1 ∈ tokenIndices 0 0 template then token else []

theorem leetCell_bit {template : List Char} (token : List Char) (mask : ℕ) {k : ℕ} {p : ℕ × Char}
    (hp : p ∈ charIndices 0 template) (hk : (leetPositions template)[k]? = some p.1) :
    ∃ replacement, leetReplacement p.2 = some replacement ∧
      leetCell template token mask p = [if mask.testBit k then replacement else p.2] := by
  have hmem : p.1 ∈ leetPositions template := List.mem_of_getElem? hk
  obtain ⟨-, hinside, hletter⟩ := (mem_leetPositions_iff hp).mp hmem
  obtain ⟨replacement, hreplacement⟩ := Option.isSome_iff_exists.mp hletter
  have hstart : p.1 ∉ tokenIndices 0 0 template := by
    intro hstart
    rw [starts_inside hstart] at hinside
    cases hinside
  have hindex : (leetPositions template).idxOf p.1 = k := by
    obtain ⟨hlt, hget⟩ := List.getElem?_eq_some_iff.mp hk
    rw [← hget]
    exact (leetPositions_nodup template).idxOf_getElem k hlt
  refine ⟨replacement, hreplacement, ?_⟩
  rw [leetCell, cell, if_neg hstart, hinside, if_neg Bool.false_ne_true, hindex, hreplacement]
  by_cases hbit : mask.testBit k = true
  · rw [if_pos ⟨hmem, hbit⟩, if_pos hbit]
    rfl
  · rw [if_neg (fun h => hbit h.2), if_neg hbit]

theorem leetCell_plain {template token : List Char} {mask : ℕ} {p : ℕ × Char}
    (hnot : p.1 ∉ leetPositions template) (hinside : insideRandomToken template p.1 = false) :
    leetCell template token mask p = [p.2] := by
  have hstart : p.1 ∉ tokenIndices 0 0 template := by
    intro hstart
    rw [starts_inside hstart] at hinside
    cases hinside
  rw [leetCell, cell, if_neg hstart, hinside, if_neg Bool.false_ne_true,
    if_neg fun h => hnot h.1]

/-- **Every rendering is faithful to its mask.** -/
theorem renderGeneratedFlag_faithful (template : List Char) (token : Option (BitVec 128))
    (mask : ℕ) : Faithful template ((token.map uuidText).getD randomTokenPlaceholder) mask
      (renderGeneratedFlag template token (some mask)) := by
  constructor
  case whole => exact (stands_start template).renderFrom_eq
  case bit => exact fun k p hp hk => leetCell_bit _ _ hp hk
  case plain => exact fun p _ hnot hinside => leetCell_plain hnot hinside
  case outside =>
    intro p hp hrange hinside
    refine leetCell_plain (fun hmem => ?_) hinside
    rw [((mem_leetPositions_iff hp).mp hmem).1] at hrange
    cases hrange
  case placeholder =>
    intro p hp hinside
    rw [leetCell, cell, if_pos hinside]

/-! ## Lower case -/

/-- `str::to_lowercase`: each character has its lower case, which is the one of ASCII for an
ASCII character; a capital sigma has two, by the place where it stands. -/
def LowersEach (toLowercase : String → String) : Prop :=
  ∃ lower : Char → List Char, (∀ c : Char, c.toNat < 128 → lower c = [c.toLower]) ∧
    ∀ text : String, ∃ images : List (List Char),
      List.Forall₂ (fun c image =>
        if c = 'Σ' then image = ['σ'] ∨ image = ['ς'] else image = lower c) text.toList images ∧
      (toLowercase text).toList = images.flatten

/-- Two characters are the same, or one replaces the other. -/
def Alike (c c' : Char) : Prop :=
  c = c' ∨ leetReplacement c = some c' ∨ leetReplacement c' = some c

theorem leetReplacement_lower {c c' : Char} (h : leetReplacement c = some c') :
    c.toNat < 128 ∧ c'.toNat < 128 ∧ c.toLower ≠ c'.toLower := by
  unfold leetReplacement at h
  split at h <;> first | (obtain rfl := Option.some.inj h; decide) | cases h

/-- A letter and what replaces it have different lower cases. -/
theorem Alike.apart {c c' : Char} (h : Alike c c') :
    c = c' ∨ c.toNat < 128 ∧ c'.toNat < 128 ∧ c.toLower ≠ c'.toLower := by
  rcases h with rfl | h | h
  · exact Or.inl rfl
  · exact Or.inr (leetReplacement_lower h)
  · obtain ⟨hascii, hascii', hne⟩ := leetReplacement_lower h
    exact Or.inr ⟨hascii', hascii, hne.symm⟩

/-- **Texts that are alike and have one lower case are the same.** -/
theorem alike_of_lowered {lower : Char → List Char}
    (hlower : ∀ c : Char, c.toNat < 128 → lower c = [c.toLower]) {text text' : List Char}
    {images images' : List (List Char)} (halike : List.Forall₂ Alike text text')
    (himages : List.Forall₂ (fun c image =>
      if c = 'Σ' then image = ['σ'] ∨ image = ['ς'] else image = lower c) text images)
    (himages' : List.Forall₂ (fun c image =>
      if c = 'Σ' then image = ['σ'] ∨ image = ['ς'] else image = lower c) text' images')
    (h : images.flatten = images'.flatten) : text = text' := by
  have hascii : ∀ c : Char, c.toNat < 128 → c ≠ 'Σ' := by
    rintro c hc rfl
    exact absurd hc (by decide)
  induction halike generalizing images images' with
  | nil => rfl
  | @cons c c' text text' hc _ ih =>
    obtain _ | ⟨himage, hrest⟩ := himages
    obtain _ | ⟨himage', hrest'⟩ := himages'
    rename_i image images image' images'
    rw [List.flatten_cons, List.flatten_cons] at h
    -- the images of one place have one length
    have hlength : image.length = image'.length := by
      rcases hc.apart with rfl | ⟨hc, hc', -⟩
      · split at himage
        · rw [if_pos ‹_›] at himage'
          rcases himage with rfl | rfl <;> rcases himage' with rfl | rfl <;> rfl
        · rw [if_neg ‹_›] at himage'
          rw [himage, himage']
      · rw [if_neg (hascii c hc), hlower c hc] at himage
        rw [if_neg (hascii c' hc'), hlower c' hc'] at himage'
        rw [himage, himage']
        rfl
    obtain ⟨hhead, htail⟩ := List.append_inj h hlength
    rw [ih hrest hrest' htail]
    rcases hc.apart with rfl | ⟨hc, hc', hne⟩
    · rfl
    · rw [if_neg (hascii c hc), hlower c hc] at himage
      rw [if_neg (hascii c' hc'), hlower c' hc'] at himage'
      rw [himage, himage'] at hhead
      exact absurd (List.cons.inj hhead).1 hne

/-! ## Different masks -/

theorem forall₂_flatMap {α : Type} {R : Char → Char → Prop} {f g : α → List Char} {l : List α}
    (h : ∀ a ∈ l, List.Forall₂ R (f a) (g a)) : List.Forall₂ R (l.flatMap f) (l.flatMap g) := by
  induction l with
  | nil => exact .nil
  | cons a l ih =>
    rw [List.forall_mem_cons] at h
    exact List.rel_append h.1 (ih h.2)

/-- Two concatenations of pieces of the same lengths have the same pieces. -/
theorem eq_of_flatMap_eq {α β : Type} {f g : α → List β} {l : List α}
    (hlength : ∀ a ∈ l, (f a).length = (g a).length) (h : l.flatMap f = l.flatMap g) :
    ∀ a ∈ l, f a = g a := by
  induction l with
  | nil => exact nofun
  | cons a l ih =>
    rw [List.forall_mem_cons] at hlength
    rw [List.flatMap_cons, List.flatMap_cons] at h
    obtain ⟨hhead, htail⟩ := List.append_inj h hlength.1
    exact List.forall_mem_cons.mpr ⟨hhead, ih hlength.2 htail⟩

/-- The renderings of a character by two masks are alike. -/
theorem leetCell_alike {template token : List Char} {mask mask' : ℕ} {p : ℕ × Char}
    (hp : p ∈ charIndices 0 template) :
    List.Forall₂ Alike (leetCell template token mask p) (leetCell template token mask' p) := by
  by_cases hmem : p.1 ∈ leetPositions template
  · obtain ⟨k, hk⟩ := List.mem_iff_getElem?.mp hmem
    obtain ⟨replacement, hreplacement, hcell⟩ := leetCell_bit token mask hp hk
    obtain ⟨replacement', hreplacement', hcell'⟩ := leetCell_bit token mask' hp hk
    obtain rfl : replacement = replacement' :=
      Option.some.inj (hreplacement.symm.trans hreplacement')
    rw [hcell, hcell']
    refine .cons ?_ .nil
    by_cases hbit : mask.testBit k = true <;> by_cases hbit' : mask'.testBit k = true
    · rw [if_pos hbit, if_pos hbit']
      exact Or.inl rfl
    · rw [if_pos hbit, if_neg hbit']
      exact Or.inr (Or.inr hreplacement)
    · rw [if_neg hbit, if_pos hbit']
      exact Or.inr (Or.inl hreplacement)
    · rw [if_neg hbit, if_neg hbit']
      exact Or.inl rfl
  · have hsame : leetCell template token mask p = leetCell template token mask' p := by
      simp only [leetCell, cell, hmem, false_and]
    rw [hsame]
    exact List.forall₂_same.mpr fun c _ => Or.inl rfl

/-- **Different masks give different renderings, also after lower-casing.** -/
theorem renderGeneratedFlag_injective {toLowercase : String → String}
    (hlower : LowersEach toLowercase) {template : List Char} {token : Option (BitVec 128)}
    {mask mask' : ℕ} (hmask : mask < 2 ^ (leetPositions template).length)
    (hmask' : mask' < 2 ^ (leetPositions template).length)
    (h : toLowercase (.ofList (renderGeneratedFlag template token (some mask))) =
      toLowercase (.ofList (renderGeneratedFlag template token (some mask')))) : mask = mask' := by
  have hfaithful := renderGeneratedFlag_faithful template token mask
  have hfaithful' := renderGeneratedFlag_faithful template token mask'
  -- the two texts are alike, so they are the same
  have hsame : renderGeneratedFlag template token (some mask) =
      renderGeneratedFlag template token (some mask') := by
    obtain ⟨lower, hascii, himages⟩ := hlower
    obtain ⟨images, heach, hflatten⟩ :=
      himages (.ofList (renderGeneratedFlag template token (some mask)))
    obtain ⟨images', heach', hflatten'⟩ :=
      himages (.ofList (renderGeneratedFlag template token (some mask')))
    rw [String.toList_ofList] at heach heach'
    have halike : List.Forall₂ Alike (renderGeneratedFlag template token (some mask))
        (renderGeneratedFlag template token (some mask')) := by
      rw [hfaithful.whole, hfaithful'.whole]
      exact forall₂_flatMap fun p hp => leetCell_alike hp
    refine alike_of_lowered hascii halike heach heach' ?_
    rw [← hflatten, ← hflatten', h]
  rw [hfaithful.whole, hfaithful'.whole] at hsame
  have hcells := eq_of_flatMap_eq (fun p hp => (leetCell_alike hp).length_eq) hsame
  -- so the masks agree in the bit of each position, and they have no others
  refine Nat.eq_of_testBit_eq fun k => ?_
  by_cases hk : k < (leetPositions template).length
  · have hget : (leetPositions template)[k]? = some (leetPositions template)[k] :=
      List.getElem?_eq_getElem hk
    obtain ⟨p, hfilter, heq⟩ := List.mem_map.mp (List.getElem_mem hk)
    have hp : p ∈ charIndices 0 template := List.mem_of_mem_filter hfilter
    rw [← heq] at hget
    obtain ⟨replacement, hreplacement, hcell⟩ := hfaithful.bit k p hp hget
    obtain ⟨replacement', hreplacement', hcell'⟩ := hfaithful'.bit k p hp hget
    obtain rfl : replacement = replacement' :=
      Option.some.inj (hreplacement.symm.trans hreplacement')
    have hne : replacement ≠ p.2 := by
      intro heq
      exact (leetReplacement_lower hreplacement).2.2 (by rw [heq])
    have hboth := hcells p hp
    rw [hcell, hcell', List.cons.injEq] at hboth
    by_cases hbit : mask.testBit k = true <;> by_cases hbit' : mask'.testBit k = true
    · rw [hbit, hbit']
    · rw [if_pos hbit, if_neg hbit'] at hboth
      exact absurd hboth.1 hne
    · rw [if_neg hbit, if_pos hbit'] at hboth
      exact absurd hboth.1.symm hne
    · rw [Bool.not_eq_true] at hbit hbit'
      rw [hbit, hbit']
  · have hbeyond : 2 ^ (leetPositions template).length ≤ 2 ^ k :=
      Nat.pow_le_pow_right (by omega) (by omega)
    rw [Nat.testBit_lt_two_pow (hmask.trans_le hbeyond),
      Nat.testBit_lt_two_pow (hmask'.trans_le hbeyond)]

/-! ## Accepted definitions -/

/-- An accepted definition with leet variation has between 1 and 62 positions. -/
theorem normalizeDefinition_positions {crates : Crates} {type text content exposure : String}
    {options data : Json} {policy : FlagPolicyData}
    (h : normalizeDefinition crates type text options exposure =
      .ok ("generated", content, data))
    (hpolicy : parsePolicy data = .ok policy) (hleet : policy.leetVariation = true) :
    1 ≤ (leetPositions content.toList).length ∧ (leetPositions content.toList).length ≤ 62 := by
  simp only [normalizeDefinition, bind_eq_ok, pure, Except.pure] at h
  obtain ⟨_, -, _, -, policy', -, _, hcheck, heq⟩ := h
  simp only [Except.ok.injEq, Prod.mk.injEq] at heq
  obtain ⟨htype, rfl, rfl⟩ := heq
  obtain rfl : policy' = policy := by
    have hread := FlagPolicyData.fromValue_toValue policy'
    rw [FlagPolicyData.toValue] at hread hpolicy
    rw [parsePolicy, hread] at hpolicy
    · exact Except.ok.inj hpolicy
    · intro h
      cases h
  rw [htype] at hcheck
  change checkGenerated (trim text).toList policy' exposure = _ at hcheck
  simp only [checkGenerated, bind_eq_ok, ensure_eq_ok, hleet, Bool.true_and, Bool.not_eq_true',
    maxLeetPositions] at hcheck
  obtain ⟨_, -, _, -, _, -, _, -, _, hsome, _, hfew, -⟩ := hcheck
  constructor
  · rcases hpositions : leetPositions (trim text).toList with _ | ⟨i, positions⟩
    · rw [hpositions] at hsome
      cases hsome
    · rw [List.length_cons]
      omega
  · have := of_decide_eq_false hfew
    omega

/-- **Leet rendering is faithful and injective.**  For every accepted definition with leet
variation, every token and every mask: the bit `k` of the mask replaces the letter at the
position `k` and nothing else changes, no shift overflows, and the flag has at most 512 bytes;
and no two masks give flags with one lower case. -/
theorem leet_rendering_exact {crates : Crates} (hlower : LowersEach crates.toLowercase)
    {type text content exposure : String} {options data : Json} {policy : FlagPolicyData}
    (h : normalizeDefinition crates type text options exposure =
      .ok ("generated", content, data))
    (hpolicy : parsePolicy data = .ok policy) (hleet : policy.leetVariation = true)
    (token : Option (BitVec 128)) :
    let template := content.toList
    let rendered := fun mask => renderGeneratedFlag template token (some mask)
    (leetPositions template).length < 64 ∧
    (∀ mask,
      Faithful template ((token.map uuidText).getD randomTokenPlaceholder) mask
        (rendered mask) ∧
      renderFromChecked (leetScope template) (token.map uuidText) mask 0 0 0 template =
        some (rendered mask) ∧
      (String.ofList (rendered mask)).utf8ByteSize ≤ 512) ∧
    ∀ mask mask', 1 ≤ mask → mask ≤ 2 ^ (leetPositions template).length - 1 →
      1 ≤ mask' → mask' ≤ 2 ^ (leetPositions template).length - 1 → mask ≠ mask' →
      crates.toLowercase (.ofList (rendered mask)) ≠
        crates.toLowercase (.ofList (rendered mask')) := by
  intro template rendered
  have hfew := (normalizeDefinition_positions h hpolicy hleet).2
  refine ⟨show (leetPositions content.toList).length < 64 by omega, fun mask => ⟨?_, ?_, ?_⟩, ?_⟩
  · exact renderGeneratedFlag_faithful content.toList token mask
  · exact (stands_start content.toList).renderFromChecked_eq (by omega)
  · let flag : SavedFlag crates :=
      ⟨⟨0, 0, "generated", content, data, 0⟩, type, text, options, exposure, h⟩
    exact (renderGeneratedFlag_fitting flag rfl token (some mask)).size
  · intro mask mask' _ hmask _ hmask' hne hsame
    have hpos : 0 < 2 ^ (leetPositions content.toList).length :=
      Nat.two_pow_pos _
    have hlt : mask < 2 ^ (leetPositions content.toList).length :=
      lt_of_le_of_lt hmask (Nat.sub_lt hpos one_pos)
    have hlt' : mask' < 2 ^ (leetPositions content.toList).length :=
      lt_of_le_of_lt hmask' (Nat.sub_lt hpos one_pos)
    exact hne (renderGeneratedFlag_injective hlower hlt hlt' hsame)

/-- The lower case of a character, a capital sigma's in the middle of a word. -/
def simpleLower (c : Char) : Char := if c = 'Σ' then 'σ' else c.toLower

/-- Crates with that lower case. -/
def leetCrates : Crates :=
  { plainCrates with toLowercase := fun text => .ofList (text.toList.map simpleLower) }

theorem leetCrates_lowers : LowersEach leetCrates.toLowercase := by
  refine ⟨fun c => [simpleLower c], fun c hc => ?_, fun text => ?_⟩
  · have hne : c ≠ 'Σ' := by
      rintro rfl
      exact absurd hc (by decide)
    show [if c = 'Σ' then 'σ' else c.toLower] = [c.toLower]
    rw [if_neg hne]
  · refine ⟨text.toList.map fun c => [simpleLower c], ?_, ?_⟩
    · rw [List.forall₂_map_right_iff]
      refine List.forall₂_same.mpr fun c _ => ?_
      split
      · rename_i heq
        rw [heq]
        exact Or.inl rfl
      · rfl
    · rw [← List.flatMap_def]
      show (String.ofList (text.toList.map simpleLower)).toList = _
      rw [String.toList_ofList, List.map_eq_flatMap]

theorem normalizeDefinition_seas : normalizeDefinition leetCrates "generated" "flag\x7bseas\x7d"
    (.object [("leet_variation", .bool true)]) "private" =
      .ok ("generated", "flag\x7bseas\x7d", (⟨true, true, false⟩ : FlagPolicyData).toValue) := by
  have htype : (trim "generated").toLower = "generated" := by decide +kernel
  have hcontent : trim "flag\x7bseas\x7d" = "flag\x7bseas\x7d" := by decide +kernel
  simp only [normalizeDefinition, bind_eq_ok, ensure_eq_ok, pure, Except.pure, htype, hcontent]
  refine ⟨⟨⟩, by decide +kernel, ⟨⟩, by decide, ⟨true, true, false⟩, rfl, ⟨⟩, ?_, rfl⟩
  show checkGenerated "flag\x7bseas\x7d".toList ⟨true, true, false⟩ "private" = .ok ⟨⟩
  decide +kernel

theorem leet_rendering_exact_seas :
    leetCrates.toLowercase
        (.ofList (renderGeneratedFlag "flag\x7bseas\x7d".toList none (some 5))) ≠
      leetCrates.toLowercase
        (.ofList (renderGeneratedFlag "flag\x7bseas\x7d".toList none (some 6))) :=
  have hpolicy : parsePolicy (⟨true, true, false⟩ : FlagPolicyData).toValue =
      .ok ⟨true, true, false⟩ := rfl
  (leet_rendering_exact leetCrates_lowers normalizeDefinition_seas hpolicy rfl none).2.2 5 6
    (by decide) (by decide +kernel) (by decide) (by decide +kernel) (by decide)

end CtfZone
