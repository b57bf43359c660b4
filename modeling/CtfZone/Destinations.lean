/-
# Which addresses the gateway connects to

`select_resolved_address` of `destination.rs`: the three layers by which the SSH gateway
refuses the addresses that a hostname resolves to.

* `refusedRanges` : loopback, unspecified, link-local, multicast and broadcast addresses;
* `sensitiveRanges` : ranges that only a network inside them opens;
* `scope_of_contains` : the table of minimum prefixes knows each of them;
* `selected_addresses_sound` : what is known of every address when one is selected.
-/
import CtfZone.IpAddresses

namespace CtfZone.Ssh

open IpAddresses

/-! ## The policy -/

/-- The networks of `Config`. -/
structure DestinationConfig where
  allowedCidrs : List IpNet
  localDeniedCidrs : List IpNet

/-- `intrinsically_unsafe`. -/
def intrinsicallyUnsafe : IpAddr → Bool
  | .v4 address =>
    let first := octet address 0
    let second := octet address 1
    -- unspecified, loopback, link-local, multicast, broadcast
    address.toNat = 0 || first = 127 || (first = 169 && second = 254) ||
      (224 ≤ first && first ≤ 239) || address.toNat = 2 ^ 32 - 1 ||
      (first = 169 && second = 254 && octet address 2 = 169 && octet address 3 = 254)
  | .v6 address =>
    -- unspecified, loopback, multicast
    address.toNat = 0 || address.toNat = 1 || segment address 0 &&& 0xff00 = 0xff00 ||
      segment address 0 &&& 0xffc0 = 0xfe80

/-- `sensitive_minimum_prefix`. -/
def sensitiveMinimumPrefix : IpAddr → Option ℕ
  | .v4 address =>
    let first := octet address 0
    let second := octet address 1
    if first = 0 then some 8
    else if first = 10 then some 8
    else if first = 100 ∧ 64 ≤ second ∧ second ≤ 127 then some 10
    else if first = 172 ∧ 16 ≤ second ∧ second ≤ 31 then some 12
    else if first = 192 ∧ second = 168 then some 16
    else if first = 192 ∧ second = 0 then some 24
    else if first = 192 ∧ second = 2 then some 24
    else if first = 198 ∧ 18 ≤ second ∧ second ≤ 19 then some 15
    else if first = 198 ∧ second = 51 then some 24
    else if first = 203 ∧ second = 0 then some 24
    else if 240 ≤ first then some 4
    else none
  | .v6 address =>
    let s := segment address
    if (s 0 = 0 ∧ s 1 = 0 ∧ s 2 = 0 ∧ s 3 = 0 ∧ s 4 = 0 ∧ s 5 = 0) ∨
        (s 0 = 0x0064 ∧ s 1 = 0xff9b ∧ s 2 = 0 ∧ s 3 = 0 ∧ s 4 = 0 ∧ s 5 = 0) then some 96
    else if s 0 = 0x0064 ∧ s 1 = 0xff9b ∧ s 2 = 1 then some 48
    else if s 0 = 0x0100 ∧ s 1 = 0 ∧ s 2 = 0 ∧ s 3 = 0 then some 64
    else if s 0 &&& 0xfe00 = 0xfc00 then some 7
    else if s 0 &&& 0xffc0 = 0xfec0 then some 10
    else if s 0 = 0x2001 ∧ s 1 = 0x0db8 then some 32
    else if s 0 = 0x2001 ∧ s 1 ≤ 0x01ff then some 23
    else if s 0 = 0x2002 then some 16
    else if s 0 = 0x3fff ∧ s 1 &&& 0xf000 = 0 then some 20
    else none

/-- `address_allowed_with_local`. -/
def addressAllowedWithLocal (config : DestinationConfig) (address : IpAddr)
    (runtimeLocalNetworks : List IpNet) : Bool :=
  let address := address.unmapped
  if intrinsicallyUnsafe address then false
  else if (config.localDeniedCidrs ++ runtimeLocalNetworks).any (·.contains address) then false
  else
    let requiredScope := sensitiveMinimumPrefix address
    config.allowedCidrs.any fun network =>
      network.contains address && requiredScope.all (· ≤ network.prefixLen)

/-- `select_resolved_address`. -/
def selectResolvedAddress (config : DestinationConfig) (addresses : List IpAddr)
    (runtimeLocalNetworks : List IpNet) : Except String IpAddr :=
  if addresses.isEmpty then .error "SSH destination did not resolve to an address"
  else if addresses.any fun address =>
      ! addressAllowedWithLocal config address runtimeLocalNetworks then
    .error "SSH destination resolution included a disallowed address"
  else match addresses.head? with
    | some address => .ok address
    | none => .error "SSH destination did not resolve to an address"

/-! ## Ranges -/

/-- The addresses that no configuration opens: unspecified, loopback, link-local, multicast
and broadcast ones. -/
def refusedRanges : List IpNet :=
  [net4 (ipv4 0 0 0 0) 32, net4 (ipv4 127 0 0 0) 8, net4 (ipv4 169 254 0 0) 16,
    net4 (ipv4 224 0 0 0) 4, net4 (ipv4 255 255 255 255) 32,
    net6 (ipv6 0 0 0 0 0 0 0 0) 128, net6 (ipv6 0 0 0 0 0 0 0 1) 128,
    net6 (ipv6 0xfe80 0 0 0 0 0 0 0) 10, net6 (ipv6 0xff00 0 0 0 0 0 0 0) 8]

/-- Private and shared ranges, and those of unique-local and site-local addresses. -/
def privateRanges : List IpNet :=
  [net4 (ipv4 10 0 0 0) 8, net4 (ipv4 172 16 0 0) 12, net4 (ipv4 192 168 0 0) 16,
    net4 (ipv4 100 64 0 0) 10, net6 (ipv6 0xfc00 0 0 0 0 0 0 0) 7,
    net6 (ipv6 0xfec0 0 0 0 0 0 0 0) 10]

/-- Ranges for documentation and for benchmarks. -/
def documentationRanges : List IpNet :=
  [net4 (ipv4 192 0 2 0) 24, net4 (ipv4 198 51 100 0) 24, net4 (ipv4 203 0 113 0) 24,
    net4 (ipv4 198 18 0 0) 15, net6 (ipv6 0x2001 0x0db8 0 0 0 0 0 0) 32,
    net6 (ipv6 0x3fff 0 0 0 0 0 0 0) 20]

/-- Reserved ranges: this network, protocol assignments (for IPv6 with the benchmarks in
them), future use, and the discard prefix. -/
def reservedRanges : List IpNet :=
  [net4 (ipv4 0 0 0 0) 8, net4 (ipv4 192 0 0 0) 24, net4 (ipv4 240 0 0 0) 4,
    net6 (ipv6 0x2001 0 0 0 0 0 0 0) 23, net6 (ipv6 0x0100 0 0 0 0 0 0 0) 64]

/-- Ranges of addresses that stand for IPv4 addresses. -/
def translationRanges : List IpNet :=
  [net6 (ipv6 0 0 0 0 0 0 0 0) 96, net6 (ipv6 0x0064 0xff9b 0 0 0 0 0 0) 96,
    net6 (ipv6 0x0064 0xff9b 1 0 0 0 0 0) 48, net6 (ipv6 0x2002 0 0 0 0 0 0 0) 16]

/-- The ranges that only a network inside them opens. -/
def sensitiveRanges : List IpNet :=
  privateRanges ++ documentationRanges ++ reservedRanges ++ translationRanges

/-- What an address is known to be that is connected to. -/
structure Opened (config : DestinationConfig) (runtimeLocalNetworks : List IpNet)
    (address : IpAddr) : Prop where
  notRefused : ∀ range ∈ refusedRanges, range.contains address = false
  notLocal : ∀ network ∈ config.localDeniedCidrs ++ runtimeLocalNetworks,
    network.contains address = false
  inside : ∃ network ∈ config.allowedCidrs, network.contains address = true ∧
    ∀ range ∈ sensitiveRanges, range.contains address = true → network.Within range

/-! ## The table knows the ranges -/

/-- The table of refused addresses knows the ranges. -/
theorem unsafe_of_refused {range : IpNet} {address : IpAddr} (hrange : range ∈ refusedRanges)
    (h : range.contains address = true) : intrinsicallyUnsafe address = true := by
  revert range
  cases address with
  | v4 address =>
      have hlt := address.isLt
      simp only [refusedRanges, List.forall_mem_cons, contains_net4, intrinsicallyUnsafe,
        Bool.or_eq_true, Bool.and_eq_true, decide_eq_true_eq]
      simp only [octet, Nat.reduceSub, Nat.reduceMul]
      refine ⟨?_, ?_, ?_, ?_, ?_, nofun, nofun, nofun, nofun, nofun⟩
      all_goals
        intro h
        omega
  | v6 address =>
      have hlt := address.isLt
      have hmulticast := and_highBits (k := 8) (segment_lt address 0) (by decide)
      have hlocal := and_highBits (k := 6) (segment_lt address 0) (by decide)
      simp only [refusedRanges, List.forall_mem_cons, contains_net6, intrinsicallyUnsafe,
        Bool.or_eq_true, decide_eq_true_eq]
      norm_num only at hmulticast hlocal
      rw [hmulticast, hlocal]
      simp only [IpAddresses.segment, Nat.reduceSub, Nat.reduceMul, Nat.reducePow]
      refine ⟨nofun, nofun, nofun, nofun, nofun, ?_, ?_, ?_, ?_, nofun⟩
      all_goals
        intro h
        omega

/-- The table of minimum prefixes knows the sensitive ranges of IPv4. -/
theorem scope_v4 {range : IpNet} {address : BitVec 32} (hrange : range ∈ sensitiveRanges)
    (h : range.contains (.v4 address) = true) :
    (sensitiveMinimumPrefix (.v4 address)).any (range.prefixLen ≤ ·) = true := by
  have hlt := address.isLt
  have hfirst : octet address 0 = address.toNat / 2 ^ 24 % 2 ^ 8 := rfl
  have hsecond : octet address 1 = address.toNat / 2 ^ 16 % 2 ^ 8 := rfl
  dsimp only [sensitiveMinimumPrefix]
  generalize octet address 0 = first at hfirst ⊢
  generalize octet address 1 = second at hsecond ⊢
  revert range
  simp only [sensitiveRanges, privateRanges, documentationRanges, reservedRanges,
    translationRanges, List.cons_append, List.nil_append, List.forall_mem_cons, contains_net4,
    contains_net6_v4]
  refine ⟨?_, ?_, ?_, ?_, nofun, nofun, ?_, ?_, ?_, ?_, nofun, nofun, ?_, ?_, ?_, nofun, nofun,
    nofun, nofun, nofun, nofun, nofun⟩
  · intro h
    obtain rfl : first = 10 := by omega
    simp [net4, IpNet.prefixLen]
  · intro h
    obtain ⟨rfl, hlow, hhigh⟩ : first = 172 ∧ 16 ≤ second ∧ second ≤ 31 := by omega
    simp [hlow, hhigh, net4, IpNet.prefixLen]
  · intro h
    obtain ⟨rfl, rfl⟩ : first = 192 ∧ second = 168 := by omega
    decide
  · intro h
    obtain ⟨rfl, hlow, hhigh⟩ : first = 100 ∧ 64 ≤ second ∧ second ≤ 127 := by omega
    simp [hlow, hhigh, net4, IpNet.prefixLen]
  · intro h
    obtain ⟨rfl, rfl⟩ : first = 192 ∧ second = 0 := by omega
    decide
  · intro h
    obtain ⟨rfl, rfl⟩ : first = 198 ∧ second = 51 := by omega
    decide
  · intro h
    obtain ⟨rfl, rfl⟩ : first = 203 ∧ second = 0 := by omega
    decide
  · intro h
    obtain ⟨rfl, hlow, hhigh⟩ : first = 198 ∧ 18 ≤ second ∧ second ≤ 19 := by omega
    simp [hlow, hhigh, net4, IpNet.prefixLen]
  · intro h
    obtain rfl : first = 0 := by omega
    simp [net4, IpNet.prefixLen]
  · intro h
    obtain ⟨rfl, rfl⟩ : first = 192 ∧ second = 0 := by omega
    decide
  · intro h
    have hhigh : 240 ≤ first := by omega
    rw [if_neg (by omega), if_neg (by omega), if_neg (by omega), if_neg (by omega),
      if_neg (by omega), if_neg (by omega), if_neg (by omega), if_neg (by omega),
      if_neg (by omega), if_neg (by omega), if_pos hhigh]
    decide

/-- The table of minimum prefixes knows the sensitive ranges of IPv6. -/
theorem scope_v6 {range : IpNet} {address : BitVec 128} (hrange : range ∈ sensitiveRanges)
    (h : range.contains (.v6 address) = true) :
    (sensitiveMinimumPrefix (.v6 address)).any (range.prefixLen ≤ ·) = true := by
  have hlt := address.isLt
  have hunique := and_highBits (k := 9) (segment_lt address 0) (by decide)
  have hsite := and_highBits (k := 6) (segment_lt address 0) (by decide)
  have hdocument := and_highBits (k := 12) (segment_lt address 1) (by decide)
  have h₀ : segment address 0 = address.toNat / 2 ^ 112 % 2 ^ 16 := rfl
  have h₁ : segment address 1 = address.toNat / 2 ^ 96 % 2 ^ 16 := rfl
  have h₂ : segment address 2 = address.toNat / 2 ^ 80 % 2 ^ 16 := rfl
  have h₃ : segment address 3 = address.toNat / 2 ^ 64 % 2 ^ 16 := rfl
  have h₄ : segment address 4 = address.toNat / 2 ^ 48 % 2 ^ 16 := rfl
  have h₅ : segment address 5 = address.toNat / 2 ^ 32 % 2 ^ 16 := rfl
  norm_num only at hunique hsite hdocument
  simp only [sensitiveMinimumPrefix, hunique, hsite, hdocument]
  clear hunique hsite hdocument
  generalize segment address 0 = s₀ at h₀ ⊢
  generalize segment address 1 = s₁ at h₁ ⊢
  generalize segment address 2 = s₂ at h₂ ⊢
  generalize segment address 3 = s₃ at h₃ ⊢
  generalize segment address 4 = s₄ at h₄ ⊢
  generalize segment address 5 = s₅ at h₅ ⊢
  revert range
  simp only [sensitiveRanges, privateRanges, documentationRanges, reservedRanges,
    translationRanges, List.cons_append, List.nil_append, List.forall_mem_cons, contains_net6,
    contains_net4_v6]
  refine ⟨nofun, nofun, nofun, nofun, ?_, ?_, nofun, nofun, nofun, nofun, ?_, ?_, nofun, nofun,
    nofun, ?_, ?_, ?_, ?_, ?_, ?_, nofun⟩
  · intro h
    obtain ⟨hlow, hhigh⟩ : 0xfc00 ≤ s₀ ∧ s₀ < 0xfe00 := by omega
    clear h h₀ h₁ h₂ h₃ h₄ h₅
    rw [if_neg (by omega), if_neg (by omega), if_neg (by omega), if_pos (by omega)]
    decide
  · intro h
    obtain ⟨hlow, hhigh⟩ : 0xfec0 ≤ s₀ ∧ s₀ < 0xff00 := by omega
    clear h h₀ h₁ h₂ h₃ h₄ h₅
    rw [if_neg (by omega), if_neg (by omega), if_neg (by omega), if_neg (by omega),
      if_pos (by omega)]
    decide
  · intro h
    obtain ⟨rfl, rfl⟩ : s₀ = 0x2001 ∧ s₁ = 0x0db8 := by omega
    simp [net6, IpNet.prefixLen]
  · intro h
    obtain ⟨rfl, hhigh⟩ : s₀ = 0x3fff ∧ s₁ / 4096 * 4096 = 0 := by omega
    simp [hhigh, net6, IpNet.prefixLen]
  · intro h
    obtain ⟨rfl, hhigh⟩ : s₀ = 0x2001 ∧ s₁ ≤ 0x1ff := by omega
    have hother : s₁ ≠ 0x0db8 := by omega
    simp [hhigh, hother, net6, IpNet.prefixLen]
  · intro h
    obtain ⟨rfl, rfl, rfl, rfl⟩ : s₀ = 0x0100 ∧ s₁ = 0 ∧ s₂ = 0 ∧ s₃ = 0 := by omega
    simp [net6, IpNet.prefixLen]
  · intro h
    obtain ⟨rfl, rfl, rfl, rfl, rfl, rfl⟩ :
        s₀ = 0 ∧ s₁ = 0 ∧ s₂ = 0 ∧ s₃ = 0 ∧ s₄ = 0 ∧ s₅ = 0 := by omega
    simp [net6, IpNet.prefixLen]
  · intro h
    obtain ⟨rfl, rfl, rfl, rfl, rfl, rfl⟩ :
        s₀ = 0x0064 ∧ s₁ = 0xff9b ∧ s₂ = 0 ∧ s₃ = 0 ∧ s₄ = 0 ∧ s₅ = 0 := by omega
    simp [net6, IpNet.prefixLen]
  · intro h
    obtain ⟨rfl, rfl, rfl⟩ : s₀ = 0x0064 ∧ s₁ = 0xff9b ∧ s₂ = 1 := by omega
    simp [net6, IpNet.prefixLen]
  · intro h
    obtain rfl : s₀ = 0x2002 := by omega
    simp [net6, IpNet.prefixLen]

/-- **The table of minimum prefixes knows the sensitive ranges.** -/
theorem scope_of_contains {range : IpNet} {address : IpAddr} (hrange : range ∈ sensitiveRanges)
    (h : range.contains address = true) :
    ∃ minimum, sensitiveMinimumPrefix address = some minimum ∧ range.prefixLen ≤ minimum := by
  have hany : (sensitiveMinimumPrefix address).any (range.prefixLen ≤ ·) = true := by
    cases address with
    | v4 address => exact scope_v4 hrange h
    | v6 address => exact scope_v6 hrange h
  obtain ⟨minimum, hminimum, hle⟩ := (Option.any_eq_true _ _).mp hany
  exact ⟨minimum, hminimum, of_decide_eq_true hle⟩

/-! ## What is known of an address that is connected to -/

variable {config : DestinationConfig} {runtimeLocalNetworks : List IpNet}

/-- An address that passes the three layers. -/
theorem opened_of_allowed {address : IpAddr}
    (h : addressAllowedWithLocal config address runtimeLocalNetworks = true) :
    Opened config runtimeLocalNetworks address.unmapped := by
  unfold addressAllowedWithLocal at h
  dsimp only at h
  generalize address.unmapped = address at h ⊢
  split at h
  · cases h
  rename_i hsafe
  split at h
  · cases h
  rename_i hforeign
  obtain ⟨network, hnetwork, hscope⟩ := List.any_eq_true.mp h
  rw [Bool.and_eq_true] at hscope
  constructor
  case notRefused =>
    intro range hrange
    rw [← Bool.not_eq_true]
    exact fun hcontains => hsafe (unsafe_of_refused hrange hcontains)
  case notLocal =>
    intro attached hattached
    rw [← Bool.not_eq_true]
    exact fun hcontains => hforeign (List.any_eq_true.mpr ⟨attached, hattached, hcontains⟩)
  case inside =>
    refine ⟨network, hnetwork, hscope.1, fun range hrange hcontains => ?_⟩
    obtain ⟨minimum, hminimum, hle⟩ := scope_of_contains hrange hcontains
    rw [hminimum, Option.all_some, decide_eq_true_eq] at hscope
    exact IpNet.within_of_mem hscope.1 hcontains (hle.trans hscope.2)

/-- **When an address is selected, every address of the set is opened** by the configuration,
and the selected one is one of them; a set with an address that is not opened is refused. -/
theorem selected_addresses_sound (config : DestinationConfig) (runtimeLocalNetworks : List IpNet)
    (addresses : List IpAddr) :
    (∀ address, selectResolvedAddress config addresses runtimeLocalNetworks = .ok address →
      address ∈ addresses ∧
        ∀ resolved ∈ addresses, Opened config runtimeLocalNetworks resolved.unmapped) ∧
      ∀ resolved ∈ addresses,
        addressAllowedWithLocal config resolved runtimeLocalNetworks = false ∨
          ¬ Opened config runtimeLocalNetworks resolved.unmapped →
        selectResolvedAddress config addresses runtimeLocalNetworks =
          .error "SSH destination resolution included a disallowed address" := by
  constructor
  · intro address h
    unfold selectResolvedAddress at h
    split at h
    · cases h
    split at h
    · cases h
    rename_i hnone
    split at h
    · rename_i first hfirst
      obtain rfl := Except.ok.inj h
      refine ⟨List.mem_of_mem_head? hfirst, fun resolved hresolved => opened_of_allowed ?_⟩
      rw [← Bool.not_eq_false]
      intro hrefused
      exact hnone (List.any_eq_true.mpr ⟨resolved, hresolved, by rw [hrefused]; rfl⟩)
    · cases h
  · intro resolved hresolved hbad
    have hrefused : addressAllowedWithLocal config resolved runtimeLocalNetworks = false := by
      rcases hbad with hrefused | hclosed
      · exact hrefused
      · rw [← Bool.not_eq_true]
        exact fun hallowed => hclosed (opened_of_allowed hallowed)
    have hany : (addresses.any fun address =>
        ! addressAllowedWithLocal config address runtimeLocalNetworks) = true :=
      List.any_eq_true.mpr ⟨resolved, hresolved, by rw [hrefused]; rfl⟩
    have hsome : addresses.isEmpty = false := by
      cases addresses with
      | nil => cases hresolved
      | cons first rest => rfl
    rw [selectResolvedAddress, hsome, if_neg (by decide), if_pos hany]

/-- Two public addresses are opened by a network of every address, and refused beside a private
one. -/
theorem public_addresses_opened :
    Opened ⟨[net4 (ipv4 0 0 0 0) 0], []⟩ [] (.v4 (ipv4 8 8 4 4)) ∧
      selectResolvedAddress ⟨[net4 (ipv4 0 0 0 0) 0], []⟩
        [.v4 (ipv4 8 8 8 8), .v4 (ipv4 192 168 1 5)] [] =
          .error "SSH destination resolution included a disallowed address" := by
  constructor
  · exact ((selected_addresses_sound ⟨[net4 (ipv4 0 0 0 0) 0], []⟩ []
      [.v4 (ipv4 8 8 4 4), .v4 (ipv4 8 8 8 8)]).1 (.v4 (ipv4 8 8 4 4)) (by decide +kernel)).2
        (.v4 (ipv4 8 8 4 4)) (by decide +kernel)
  · exact (selected_addresses_sound ⟨[net4 (ipv4 0 0 0 0) 0], []⟩ []
      [.v4 (ipv4 8 8 8 8), .v4 (ipv4 192 168 1 5)]).2 (.v4 (ipv4 192 168 1 5)) (by decide +kernel)
        (.inl (by decide +kernel))

/-- The benchmarking range of IPv6. -/
def benchmarkRange : IpNet := net6 (ipv6 0x2001 2 0 0 0 0 0 0) 48

/-- A configuration that opens the protocol assignments of IPv6 opens the benchmarks among
them, although its network is wider than their range. -/
theorem benchmark_opened :
    selectResolvedAddress ⟨[net6 (ipv6 0x2001 0 0 0 0 0 0 0) 23], []⟩
        [.v6 (ipv6 0x2001 2 0 0 0 0 0 1)] [] = .ok (.v6 (ipv6 0x2001 2 0 0 0 0 0 1)) ∧
      benchmarkRange.contains (.v6 (ipv6 0x2001 2 0 0 0 0 0 1)) = true ∧
      ∀ network ∈ [net6 (ipv6 0x2001 0 0 0 0 0 0 0) 23], ¬ network.Within benchmarkRange := by
  refine ⟨by decide +kernel, by decide +kernel, ?_⟩
  intro network hnetwork hwithin
  rw [List.mem_singleton] at hnetwork
  subst hnetwork
  have hout := hwithin (.v6 (ipv6 0x2001 3 0 0 0 0 0 1)) (by decide +kernel)
  exact absurd hout (by decide +kernel)

end CtfZone.Ssh
