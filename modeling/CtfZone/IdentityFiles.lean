/-
# The files of an identity directory, call by call

What the calls of `IdentityVolume` leave of a volume, whatever the environment does to them.

* `Apart`, `Removes`, `Writes`, `AnyMode` : which changes of one entry a predicate survives;
* `contract_call`, `contract_ask` : calls that may fail.
-/
import CtfZone.IdentityVolume

namespace CtfZone.Ssh.Identity

open Effects Effects.Prog

/-! ## Changes of one entry -/

namespace Volume

@[simp] theorem node_absent (e : Entry) : absent.node e = none := rfl

theorem node_put_of_ne {e e' : Entry} (h : e' ≠ e) (n : Option Node) (v : Volume) :
    (v.put e n).node e' = v.node e' := by
  cases v with
  | directory d =>
    show (if e' = e then n else d.node e') = d.node e'
    rw [if_neg h]
  | _ => rfl

theorem node_put_directory (e : Entry) (n : Option Node) (d : Directory) :
    ((directory d).put e n).node e = n := by
  show (if e = e then n else d.node e) = n
  rw [if_pos rfl]

/-- Only a directory has entries. -/
theorem node_put_of_isSome {e : Entry} {v : Volume} (h : (v.node e).isSome) (n : Option Node) :
    (v.put e n).node e = n := by
  cases v with
  | directory d => exact node_put_directory e n d
  | absent => cases h
  | obstructed => cases h

theorem node_put_none (e : Entry) (v : Volume) : (v.put e none).node e = none := by
  cases v with
  | directory d => exact node_put_directory e none d
  | _ => rfl

/-- A node is put where it is. -/
theorem put_node (e : Entry) (v : Volume) : v.put e (v.node e) = v := by
  cases v with
  | directory d =>
    show directory { d with node := fun e' => if e' = e then d.node e else d.node e' } = _
    congr 2
    funext e'
    by_cases h : e' = e
    · rw [if_pos h, h]
    · rw [if_neg h]
  | _ => rfl

/-- A node that stands somewhere may be put anywhere. -/
theorem node_put_of_directory {e e' : Entry} {v : Volume} (h : (v.node e').isSome)
    (n n' : Option Node) : ((v.put e' n').put e n).node e = n := by
  cases v with
  | directory d => exact node_put_directory e n _
  | absent => cases h
  | obstructed => cases h

theorem lookup_ok {e : Entry} {v : Volume} {n : Option Node} (h : v.lookup e = .ok n) :
    n = v.node e := by
  cases v with
  | obstructed => cases h
  | absent => exact (Except.ok.inj h).symm
  | directory d => exact (Except.ok.inj h).symm

theorem unlink_ok {e : Entry} {v v' : Volume} (h : v.unlink e = .ok v') :
    v' = v.put e none := by
  unfold unlink at h
  split at h
  · cases h
  · rename_i hlookup
    rw [← Except.ok.inj h, lookup_ok hlookup, put_node]
  · cases h
  · exact (Except.ok.inj h).symm

theorem changeMode_ok {e : Entry} {mode : ℕ} {v v' : Volume}
    (h : v.changeMode e mode = .ok v') :
    (∃ content m, v.node e = some (.file content m) ∧ v' = v.put e (some (.file content mode))) ∨
      (∀ content m, v.node e ≠ some (.file content m)) ∧ v' = v := by
  unfold changeMode at h
  split at h
  · rename_i content m hnode
    exact .inl ⟨content, m, hnode, (Except.ok.inj h).symm⟩
  · rename_i n hnode hfile
    refine .inr ⟨fun content m hn => ?_, (Except.ok.inj h).symm⟩
    rw [hn] at hfile
    exact hnode content m (Option.some.inj hfile.symm)
  · cases h

theorem rename_ok {source target : Entry} {v v' : Volume} (h : v.rename source target = .ok v') :
    ∃ n, v.node source = some n ∧ v' = (v.put source none).put target (some n) := by
  unfold rename at h
  split at h
  · cases h
  · rename_i n hsource
    split at h
    · cases h
    · exact ⟨n, hsource, (Except.ok.inj h).symm⟩

theorem write_ok {e : Entry} {mode : ℕ} {content : ByteArray} {v v' : Volume}
    (h : v.write e mode content = .ok v') :
    (∃ m, v' = v.put e (some (.file content m)) ∧ v'.node e = some (.file content m)) ∨
      v.node e = some .symlink ∧ v' = v := by
  unfold write at h
  split at h
  · rename_i d
    split at h
    · rw [← Except.ok.inj h]
      exact .inl ⟨mode, rfl, node_put_directory _ _ _⟩
    · rename_i m _
      rw [← Except.ok.inj h]
      exact .inl ⟨m, rfl, node_put_directory _ _ _⟩
    · rename_i hnode
      exact .inr ⟨hnode, (Except.ok.inj h).symm⟩
    · cases h
  · cases h
  · cases h

theorem writeNoFollow_ok {e : Entry} {mode : ℕ} {content : ByteArray} {v v' : Volume}
    (h : v.writeNoFollow e mode content = .ok v') :
    ∃ m, v' = v.put e (some (.file content m)) ∧ v'.node e = some (.file content m) := by
  unfold writeNoFollow at h
  split at h
  · cases h
  · rename_i hlink
    rcases write_ok h with hput | ⟨hsymlink, -⟩
    · exact hput
    · exact absurd hsymlink hlink

theorem removeDirectory_ok {v v' : Volume} (h : v.removeDirectory = .ok v') : v' = .absent := by
  cases v with
  | absent => cases h
  | obstructed => cases h
  | directory d =>
    by_cases hempty : d.isEmpty
    · rw [removeDirectory, if_pos hempty] at h
      exact (Except.ok.inj h).symm
    · rw [removeDirectory, if_neg hempty] at h
      cases h

end Volume

/-! ## Calls -/

section Calls

variable {α : Type} {env : Env} {P Q R : Volume → Prop} {stage : Stage} {action : Action}

/-- A call that fails leaves the volume as it was, or as the call makes it. -/
theorem contract_call {effect : Volume → Except String Volume}
    (hdone : ∀ v v', P v → effect v = .ok v' → Q v') (hfail : ∀ v, P v → R v)
    (htook : ∀ v, Q v → R v) : Contract (call stage action effect) env P (fun _ => Q) R := by
  have hcut : ∀ took v, P v → R (tookEffect took effect v) := by
    intro took v hv
    unfold tookEffect
    split
    · split
      · rename_i v' hv'
        exact htook v' (hdone v v' hv hv')
      · exact hfail v hv
    · exact hfail v hv
  intro v hv
  unfold wp call
  cases env.fault stage action with
  | none =>
    dsimp only
    split
    · rename_i v' hv'
      exact ⟨fun _ _ => hdone v v' hv hv', fun h => absurd rfl (h _)⟩
    · exact ⟨nofun, fun _ => hfail v hv⟩
  | error took => exact ⟨nofun, fun _ => hcut took v hv⟩
  | kill took => exact ⟨nofun, fun _ => hcut took v hv⟩

/-- What a call has looked at is still there. -/
theorem contract_ask {f : Volume → Except String α} :
    Contract (ask stage action f) env P (fun a v => P v ∧ f v = .ok a) P := by
  intro v hv
  unfold wp ask
  cases env.fault stage action with
  | none =>
    dsimp only
    split
    · rename_i a ha
      refine ⟨fun a' h => ⟨hv, ?_⟩, fun _ => hv⟩
      rw [ha, Outcome.done.inj h]
    · exact ⟨nofun, fun _ => hv⟩
  | error took => exact ⟨nofun, fun _ => hv⟩
  | kill took => exact ⟨nofun, fun _ => hv⟩

theorem contract_lift {x : Except String α} :
    Contract (lift x) env P (fun a v => P v ∧ x = .ok a) P := by
  cases x with
  | ok a =>
    apply contract_pure
    exact fun v hv => ⟨hv, rfl⟩
  | error e =>
    apply contract_raise
    exact fun v hv => hv

end Calls

/-! ## Files -/

/-- `P` does not ask what stands at an entry. -/
def Apart (e : Entry) (P : Volume → Prop) : Prop := ∀ v n, P v → P (v.put e n)

theorem apart_node {e e' : Entry} (h : e' ≠ e) (p : Option Node → Prop) :
    Apart e fun v => p (v.node e') := by
  intro v n hv
  rwa [Volume.node_put_of_ne h]

theorem Apart.and {e : Entry} {P Q : Volume → Prop} (hP : Apart e P) (hQ : Apart e Q) :
    Apart e fun v => P v ∧ Q v :=
  fun v n hv => ⟨hP v n hv.1, hQ v n hv.2⟩

/-- `P` survives the removal of an entry. -/
def Removes (e : Entry) (P : Volume → Prop) : Prop := ∀ v, P v → P (v.put e none)

/-- `P` survives a file at an entry. -/
def Writes (e : Entry) (P : Volume → Prop) : Prop :=
  ∀ v content m, P v → P (v.put e (some (.file content m)))

/-- `P` does not ask for the mode of a file. -/
def AnyMode (e : Entry) (P : Volume → Prop) : Prop :=
  ∀ v content m m', P v → v.node e = some (.file content m) →
    P (v.put e (some (.file content m')))

section Entries

variable {e : Entry} {P Q : Volume → Prop}

theorem Apart.removes (hP : Apart e P) : Removes e P := fun v hv => hP v none hv

theorem Apart.writes (hP : Apart e P) : Writes e P := fun v _ _ hv => hP v _ hv

theorem Writes.and (hP : Writes e P) (hQ : Writes e Q) : Writes e fun v => P v ∧ Q v :=
  fun v content m hv => ⟨hP v content m hv.1, hQ v content m hv.2⟩

theorem Writes.anyMode (hP : Writes e P) : AnyMode e P := fun v content _ m' hv _ =>
  hP v content m' hv

theorem Apart.anyMode (hP : Apart e P) : AnyMode e P := hP.writes.anyMode

end Entries

section Files

variable {env : Env} {P : Volume → Prop} {stage : Stage} {e : Entry}

theorem removeIfExists_contract (hP : Removes e P) :
    Contract (removeIfExists stage e) env P (fun _ v => P v ∧ v.node e = none) P := by
  refine contract_call (Q := fun v => P v ∧ v.node e = none) ?_ (fun v hv => hv) fun v hv => hv.1
  intro v v' hv h
  rw [Volume.unlink_ok h]
  exact ⟨hP v hv, Volume.node_put_none e v⟩

theorem removeFileEntryIfExists_contract (hP : Removes e P) :
    Contract (removeFileEntryIfExists stage e) env P (fun _ v => P v ∧ v.node e = none) P := by
  refine Contract.bind contract_ask fun n => ?_
  split
  · apply contract_raise
    exact fun v hv => hv.1
  · exact (removeIfExists_contract hP).pre fun v hv => hv.1
  · apply contract_pure
    exact fun v hv => ⟨hv.1, (Volume.lookup_ok hv.2).symm⟩

theorem removeRegularFileIfExists_contract (hP : Removes e P) :
    Contract (removeRegularFileIfExists stage e) env P (fun _ v => P v ∧ v.node e = none) P := by
  refine Contract.bind contract_ask fun n => ?_
  split
  · exact (removeIfExists_contract hP).pre fun v hv => hv.1
  · apply contract_raise
    exact fun v hv => hv.1
  · apply contract_pure
    exact fun v hv => ⟨hv.1, (Volume.lookup_ok hv.2).symm⟩

/-- A file that is protected is there, with mode 600. -/
theorem protectFile_contract (hP : AnyMode e P) :
    Contract (protectFile stage e) env P
      (fun _ v => P v ∧ ∃ content, v.node e = some (.file content 0o600)) P := by
  refine Contract.bind contract_ask fun n => ?_
  split
  · rename_i content m
    refine contract_call (Q := fun v => P v ∧ ∃ content, v.node e = some (.file content 0o600))
      ?_ (fun v hv => hv.1) fun v hv => hv.1
    intro v v' hv h
    have hnode := Volume.lookup_ok hv.2
    rcases Volume.changeMode_ok h with ⟨content', m', hnode', rfl⟩ | ⟨hfile, -⟩
    · refine ⟨hP v content' m' _ hv.1 hnode', content', ?_⟩
      apply Volume.node_put_of_isSome
      rw [hnode']
      rfl
    · exact absurd hnode.symm (hfile content m)
  · apply contract_raise
    exact fun v hv => hv.1
  · apply contract_raise
    exact fun v hv => hv.1

theorem fsyncFile_contract : Contract (fsyncFile stage e) env P (fun _ => P) P :=
  Contract.post contract_ask fun _ _ hv => hv.1

theorem fsyncDirectory_contract : Contract (fsyncDirectory stage) env P (fun _ => P) P := by
  refine contract_call (fun v v' hv h => ?_) (fun _ hv => hv) fun _ hv => hv
  rwa [← Except.ok.inj h]

theorem pathEntryExists_contract :
    Contract (pathEntryExists stage e) env P (fun b v => P v ∧ b = (v.node e).isSome) P := by
  refine Contract.bind contract_ask fun n => ?_
  apply contract_pure
  intro v hv
  rw [Volume.lookup_ok hv.2]
  exact ⟨hv.1, rfl⟩

/-- Something that is no regular file is refused. -/
theorem regularFileExists_contract :
    Contract (regularFileExists stage e) env P (fun b v => P v ∧ b = (v.node e).isSome) P := by
  refine Contract.bind contract_ask fun n => ?_
  split
  · apply contract_pure
    intro v hv
    rw [← Volume.lookup_ok hv.2]
    exact ⟨hv.1, rfl⟩
  · apply contract_raise
    exact fun v hv => hv.1
  · apply contract_pure
    intro v hv
    rw [← Volume.lookup_ok hv.2]
    exact ⟨hv.1, rfl⟩

theorem ensurePrivateDirectory_contract (hempty : P .absent → P (.directory .empty)) :
    Contract ensurePrivateDirectory env P (fun _ => P) P := by
  refine Contract.bind contract_ask fun v₀ => ?_
  have hprotect : Contract (call .look .protectDirectory .ok) env P (fun _ => P) P :=
    contract_call (fun v v' hv h => Except.ok.inj h ▸ hv) (fun _ hv => hv) fun _ hv => hv
  refine Contract.bind (Q := fun _ => P) ?_ fun _ => hprotect
  unfold makeDirectory
  split
  · apply contract_pure
    exact fun v hv => hv.1
  · apply contract_raise
    exact fun v hv => hv.1
  · refine contract_call ?_ (fun v hv => hv.1) fun v hv => hv
    intro v v' hv h
    cases v with
    | absent => exact Except.ok.inj h ▸ hempty hv.1
    | obstructed => cases h
    | directory d => cases h

end Files

end CtfZone.Ssh.Identity
