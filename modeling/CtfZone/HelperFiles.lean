/-
# Replacing a file

`write_state` and `write_tombstone` write a temporary file, sync it, rename it
over the target and sync the directory, with a `finally` clause that unlinks the
temporary file.  The renaming may have taken effect although the call raises:
`Env.tears` says exactly when.
-/
import CtfZone.HelperRules

open Effects Effects.Prog

namespace CtfZone

/-! ## What the environment lets happen -/

/-- The step takes effect, whether or not it succeeds. -/
def Fault.takesEffect : Fault → Bool
  | .none => true
  | .exit took | .timeout took | .osError took | .kill took => took

/-- A command at this step returns, with whatever status. -/
def Fault.returns : Fault → Bool
  | .none | .exit _ => true
  | _ => false

/-- The helper survives the step. -/
def Fault.survived : Fault → Bool
  | .kill _ => false
  | _ => true

/-- Every step from writing the temporary file to syncing the directory
succeeds. -/
def Env.replaces (env : Env) (p : Phase) (file : FileKind) : Bool :=
  env.fault p (.writeTemporary file) = .none && env.fault p (.changeMode file) = .none &&
    env.fault p (.replace file) = .none && env.fault p (.openDirectory file) = .none &&
    env.fault p (.syncDirectory file) = .none

/-- The renaming takes effect, and it or a step after it raises. -/
def Env.tearsWithin (env : Env) (p : Phase) (file : FileKind) : Bool :=
  env.fault p (.writeTemporary file) = .none && env.fault p (.changeMode file) = .none &&
    ((env.fault p (.replace file)).refuses && (env.fault p (.replace file)).takesEffect ||
      env.fault p (.replace file) = .none &&
        ((env.fault p (.openDirectory file)).refuses ||
          env.fault p (.openDirectory file) = .none &&
            (env.fault p (.syncDirectory file)).refuses))

/-- The file is replaced, and yet `write_state` (or `write_tombstone`) raises:
within the `try` block, or in its `finally` clause. -/
def Env.tears (env : Env) (p : Phase) (file : FileKind) : Bool :=
  env.fault p (.makeDirectory file) = .none && env.fault p (.makeTemporary file) = .none &&
    (env.fault p (.unlinkTemporary file)).survived &&
    (env.tearsWithin p file ||
      env.replaces p file && (env.fault p (.unlinkTemporary file)).refuses)

@[simp] theorem Fault.refuses_none : Fault.none.refuses = false := rfl

@[simp] theorem Fault.survived_none : Fault.none.survived = true := rfl

theorem Fault.ne_none_of_refuses {f : Fault} (h : f.refuses = true) : f ≠ .none := by
  rintro rfl
  cases h

theorem Fault.ne_none_of_killed {f : Fault} (h : f.survived = false) : f ≠ .none := by
  rintro rfl
  cases h

theorem Fault.refuses_of_killed {f : Fault} (h : f.survived = false) : f.refuses = false := by
  cases f <;> first | rfl | cases h

theorem Fault.survived_of_refuses {f : Fault} (h : f.refuses = true) : f.survived = true := by
  cases f <;> first | rfl | cases h

namespace Helper

variable {env : Env}

/-! ## Replacing a file -/

theorem wp_fileCall {p : Phase} {st : Step} {effect : Cell → Cell} {s : Cell}
    {Q : Outcome Exc PUnit → Cell → Prop} :
    wp (fileCall p st effect) env s Q ↔
      (env.fault p st = .none → Q (.done ⟨⟩) (effect s)) ∧
      ((env.fault p st).refuses = true →
        Q (.raised .osError) (tookEffect (env.fault p st).takesEffect effect s)) ∧
      ((env.fault p st).survived = false →
        Q .halted (tookEffect (env.fault p st).takesEffect effect s)) := by
  unfold wp fileCall
  rcases env.fault p st with _ | took | took | took | took <;>
    simp [Fault.refuses, Fault.survived, Fault.takesEffect]

@[simp] theorem tookEffect_id (took : Bool) (s : Cell) : tookEffect took id s = s := by
  cases took <;> rfl

/-- The `try` block of a replacement. -/
theorem wp_replaceBody (p : Phase) (file : FileKind) (install : Cell → Cell) (s : Cell) :
    wp (do
      fileCall p (.writeTemporary file) id
      fileCall p (.changeMode file) id
      fileCall p (.replace file) install
      fileCall p (.openDirectory file) id
      fileCall p (.syncDirectory file) id) env s fun o s' =>
      match o with
      | .done _ => s' = install s ∧ env.replaces p file = true ∧ env.tearsWithin p file = false
      | .raised _ => s' = (if env.tearsWithin p file then install s else s) ∧
          env.replaces p file = false
      | .halted => (s' = s ∨ s' = install s) ∧ env.replaces p file = false ∧
          env.tearsWithin p file = false := by
  unfold Env.replaces Env.tearsWithin
  rw [wp_bind, wp_fileCall]
  refine ⟨fun h₁ => ?_, fun h => by simp [Fault.ne_none_of_refuses h],
    fun h => by simp [Fault.ne_none_of_killed h]⟩
  rw [thenPost_done, wp_bind, wp_fileCall]
  refine ⟨fun h₂ => ?_, fun h => by simp [Fault.ne_none_of_refuses h],
    fun h => by simp [Fault.ne_none_of_killed h]⟩
  rw [thenPost_done, wp_bind, wp_fileCall]
  refine ⟨fun h₃ => ?_, fun h => ?_, fun h => ?_⟩
  · rw [thenPost_done, wp_bind, wp_fileCall]
    refine ⟨fun h₄ => ?_, fun h => by simp [h₁, h₂, h₃, h, Fault.ne_none_of_refuses h],
      fun h => by simp [h₃, Fault.refuses_of_killed h, Fault.ne_none_of_killed h]⟩
    rw [thenPost_done, wp_fileCall]
    refine ⟨fun h₅ => by simp [h₁, h₂, h₃, h₄, h₅],
      fun h => by simp [h₁, h₂, h₃, h₄, h, Fault.ne_none_of_refuses h],
      fun h => by simp [h₃, h₄, Fault.refuses_of_killed h, Fault.ne_none_of_killed h]⟩
  · simp [h₁, h₂, h, Fault.ne_none_of_refuses h, tookEffect]
  · simp [Fault.refuses_of_killed h, Fault.ne_none_of_killed h, tookEffect]
    cases (env.fault p (.replace file)).takesEffect <;> simp

/-- A replacement succeeds, is torn, fails without effect, or is cut off. -/
theorem wp_replaceFile (p : Phase) (file : FileKind) (install : Cell → Cell) (s : Cell) :
    wp (replaceFile p file install) env s fun o s' =>
      match o with
      | .done _ => s' = install s ∧ env.tears p file = false
      | .raised _ => s' = if env.tears p file then install s else s
      | .halted => (s' = s ∨ s' = install s) ∧ env.tears p file = false := by
  unfold replaceFile Env.tears
  rw [wp_bind, wp_fileCall]
  refine ⟨fun h₁ => ?_, fun h => by simp [Fault.ne_none_of_refuses h],
    fun h => by simp [Fault.ne_none_of_killed h]⟩
  rw [thenPost_done, wp_bind, wp_fileCall]
  refine ⟨fun h₂ => ?_, fun h => by simp [Fault.ne_none_of_refuses h],
    fun h => by simp [Fault.ne_none_of_killed h]⟩
  rw [thenPost_done, wp_always]
  refine wp_mono (wp_replaceBody p file install s) fun o s' ho => ?_
  cases o with
  | done _ =>
      obtain ⟨rfl, hall, hwithin⟩ := ho
      rw [finallyPost_done, wp_fileCall]
      refine ⟨fun h => by simp [cleanupPost, h, hwithin],
        fun h => by simp [cleanupPost, h₁, h₂, h, hall, Fault.survived_of_refuses h],
        fun h => by simp [cleanupPost, h]⟩
  | raised e =>
      obtain ⟨rfl, hall⟩ := ho
      rw [finallyPost_raised, wp_fileCall]
      refine ⟨fun h => by simp [cleanupPost, h₁, h₂, h, hall],
        fun h => by simp [cleanupPost, h₁, h₂, h, hall, Fault.survived_of_refuses h],
        fun h => ?_⟩
      simp only [cleanupPost, tookEffect_id, h, Bool.and_false, Bool.false_and]
      split <;> simp
  | halted =>
      obtain ⟨hs', hall, hwithin⟩ := ho
      simp [hs', hall, hwithin]

end Helper

end CtfZone
