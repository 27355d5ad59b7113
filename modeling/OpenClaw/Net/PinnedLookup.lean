import Mathlib.Algebra.GroupWithZero.Nat
import OpenClaw.Net.Ssrf

/-! The addresses a pinned lookup yields.

A lookup answers for its own name from its records (`answers_pinned`), whatever is asked
and however often. The name it knows has been normalised twice, the name of a call once:
the two are the same exactly for a hostname that one normalisation makes stable, and any
other is asked of the system's resolver. -/
namespace OpenClaw.Net
open Foundation List

variable {cases : CaseTables} {ip : IpaddrJs} {policy : SsrFPolicy} {hostname : String}
  {lookupFn : String → Option (List LookupAddress)} {pinned : PinnedHostname}

/-! ### Records -/

theorem usableRecords_subset {records : List LookupAddress} {requestedFamily : Nat} :
    ∀ r ∈ usableRecords records requestedFamily, r ∈ records := by
  intro r hr
  have hcandidates (l : List LookupAddress) (hl : l ⊆ records) (h : r ∈ if l.isEmpty then records else l) :
      r ∈ records := by
    split at h
    · exact h
    · exact hl h
  refine hcandidates _ ?_ hr
  split
  · exact fun e he => mem_of_mem_filter he
  · exact List.Subset.refl records

theorem map_toRecord_address (addresses : List String) :
    (addresses.map toRecord).map LookupAddress.address = addresses := by
  rw [map_map]
  exact map_id addresses

/-- The step of the removal of duplicates. -/
def keepFirst (kept : List LookupAddress) (entry : LookupAddress) : List LookupAddress :=
  if kept.any (·.address = entry.address) then kept else kept ++ [entry]

theorem keepFirst_mem {kept : List LookupAddress} {entry e : LookupAddress} (h : e ∈ keepFirst kept entry) :
    e ∈ kept ∨ e = entry := by
  unfold keepFirst at h
  split at h
  · exact .inl h
  · exact mem_append.mp h |>.imp id mem_singleton.mp

theorem keepFirst_ne_nil (kept : List LookupAddress) (entry : LookupAddress) : keepFirst kept entry ≠ [] := by
  unfold keepFirst
  split
  · rename_i h
    rintro rfl
    cases h
  · simp

theorem foldl_keepFirst_mem {results kept : List LookupAddress} {e : LookupAddress}
    (h : e ∈ results.foldl keepFirst kept) : e ∈ kept ∨ e ∈ results := by
  induction results generalizing kept with
  | nil => exact .inl h
  | cons entry rest ih =>
    obtain hkept | hrest := ih h
    · obtain hold | rfl := keepFirst_mem hkept
      · exact .inl hold
      · exact .inr mem_cons_self
    · exact .inr (mem_cons_of_mem _ hrest)

theorem foldl_keepFirst_ne_nil {results kept : List LookupAddress} (h : kept ≠ []) :
    results.foldl keepFirst kept ≠ [] := by
  induction results generalizing kept with
  | nil => exact h
  | cons entry rest ih => exact ih (keepFirst_ne_nil kept entry)

theorem dedupeAndPreferIpv4_subset {results : List LookupAddress} :
    ∀ a ∈ dedupeAndPreferIpv4 results, a ∈ results.map LookupAddress.address := by
  intro a ha
  obtain ⟨e, he, rfl⟩ := mem_map.mp ha
  have hkept : e ∈ results.foldl keepFirst [] := by
    obtain h | h := mem_append.mp he <;> exact mem_of_mem_filter h
  obtain h | h := foldl_keepFirst_mem hkept
  · cases h
  · exact mem_map_of_mem h

theorem dedupeAndPreferIpv4_ne_nil {results : List LookupAddress} (h : results ≠ []) :
    dedupeAndPreferIpv4 results ≠ [] := by
  cases results with
  | nil => exact absurd rfl h
  | cons entry rest =>
    obtain ⟨e, he⟩ := exists_mem_of_ne_nil _ (foldl_keepFirst_ne_nil (keepFirst_ne_nil [] entry) : rest.foldl
      keepFirst (keepFirst [] entry) ≠ [])
    refine ne_nil_of_mem (mem_map_of_mem (f := LookupAddress.address) (a := e) ?_)
    by_cases hfamily : e.family = 4
    · exact mem_append_left _ (mem_filter.mpr ⟨he, by simp [hfamily]⟩)
    · exact mem_append_right _ (mem_filter.mpr ⟨he, by simp [hfamily]⟩)

/-! ### Calls -/

/-- Every call is for a spelling of the name. -/
def SpelledAs (cases : CaseTables) (hostname : String) (calls : List LookupCall) : Prop :=
  ∀ call ∈ calls, normalizeHostname cases call.host = normalizeHostname cases hostname

/-- A call for its own name: an answer from the records, and the next index. -/
theorem call_pinned {host : String} {records : List LookupAddress} {index : Nat} {fallback : Lookup}
    {call : LookupCall} (hne : host ≠ "") (hcall : normalizeHostname cases call.host = host) :
    (∀ a ∈ ((Lookup.pinned host records index fallback).call cases call).1.addresses,
        a ∈ records.map LookupAddress.address) ∧
      ∃ next, ((Lookup.pinned host records index fallback).call cases call).2 =
        .pinned host records next fallback := by
  unfold Lookup.call
  rw [hcall]
  simp only [hne, ne_eq, not_true_eq_false, or_self, if_false]
  split
  · refine ⟨fun a ha => ?_, _, rfl⟩
    obtain ⟨r, hr, rfl⟩ := mem_map.mp ha
    exact mem_map_of_mem (usableRecords_subset r hr)
  · split
    · rename_i chosen hchosen
      refine ⟨fun a ha => ?_, _, rfl⟩
      obtain rfl := mem_singleton.mp ha
      exact mem_map_of_mem (usableRecords_subset chosen (mem_of_getElem? hchosen))
    · refine ⟨fun a ha => ?_, _, rfl⟩
      cases ha

/-- However often it is asked for its own name, a lookup answers from its records. -/
theorem answers_pinned {host : String} {records : List LookupAddress} {index : Nat} {fallback : Lookup}
    {calls : List LookupCall} (hne : host ≠ "")
    (hcalls : ∀ call ∈ calls, normalizeHostname cases call.host = host) :
    ∀ answer ∈ (Lookup.pinned host records index fallback).answers cases calls, ∀ a ∈ answer.addresses,
      a ∈ records.map LookupAddress.address := by
  induction calls generalizing index with
  | nil =>
    intro answer h
    cases h
  | cons call rest ih =>
    intro answer h
    obtain ⟨hfirst, next, hnext⟩ :=
      @call_pinned cases host records index fallback call hne (hcalls call mem_cons_self)
    rw [Lookup.answers, hnext, mem_cons] at h
    obtain h | hrest := h
    · rw [h]
      exact hfirst
    · exact ih (fun c hc => hcalls c (mem_cons_of_mem _ hc)) answer hrest

/-- A call for another name goes to the lookup behind it. -/
theorem call_other {host : String} {records : List LookupAddress} {index : Nat} {fallback : Lookup}
    {call : LookupCall} (hcall : normalizeHostname cases call.host ≠ host) :
    ((Lookup.pinned host records index fallback).call cases call).1 = (fallback.call cases call).1 := by
  rw [Lookup.call]
  simp only [ne_eq, hcall, not_false_eq_true, or_true, if_true]

/-! ### The property -/

/-- The checks let the name and its addresses pass. -/
def Admitted (cases : CaseTables) (ip : IpaddrJs) (hostname : String) (policy : SsrFPolicy)
    (lookupFn : String → Option (List LookupAddress)) : Prop :=
  normalizeHostname cases hostname ≠ "" ∧
  matchesHostnameAllowlist (normalizeHostname cases hostname)
    (normalizeHostnameAllowlist cases policy.hostnameAllowlist) = true ∧
  isBlockedHostnameOrIp cases ip (normalizeHostname cases hostname) policy = false ∧
  ∃ results, lookupFn (normalizeHostname cases hostname) = some results ∧ results ≠ [] ∧
    ∀ entry ∈ results, isBlockedHostnameOrIp cases ip entry.address policy = false

/-- The lookup yields `addresses` only, for any spelling of the name. -/
def YieldsOnly (cases : CaseTables) (hostname : String) (lookup : Lookup) (addresses : List String) : Prop :=
  ∀ calls, SpelledAs cases hostname calls → ∀ answer ∈ lookup.answers cases calls, ∀ a ∈ answer.addresses,
    a ∈ addresses

/-- A resolution that does not throw has an answer without a blocked address, and its
lookup yields the addresses of that answer. -/
def VettedResolution (cases : CaseTables) (ip : IpaddrJs) (hostname : String) (policy : SsrFPolicy)
    (lookupFn : String → Option (List LookupAddress)) : Prop :=
  ∀ pinned, resolvePinnedHostnameWithPolicy cases ip hostname policy lookupFn = .ok pinned →
    ∃ results, lookupFn (normalizeHostname cases hostname) = some results ∧ results ≠ [] ∧
      (∀ entry ∈ results, isBlockedHostnameOrIp cases ip entry.address policy = false) ∧
      YieldsOnly cases hostname pinned.lookup (results.map LookupAddress.address)

/-- The lookup of a dispatcher with an override yields the override's addresses, none of
which is blocked. -/
def VettedOverride (cases : CaseTables) (ip : IpaddrJs) (hostname : String) (policy : SsrFPolicy)
    (lookupFn : String → Option (List LookupAddress)) : Prop :=
  ∀ pinned override lookup, resolvePinnedHostnameWithPolicy cases ip hostname policy lookupFn = .ok pinned →
    resolvePinnedDispatcherLookup cases ip pinned (some override) policy = .ok lookup →
    (∀ a ∈ override.addresses, isBlockedHostnameOrIp cases ip a policy = false) ∧
      YieldsOnly cases hostname lookup override.addresses

/-! ### Resolution -/

theorem createPinnedLookup_eq {addresses : List String} (h : addresses ≠ []) (host : String) (fallback : Lookup) :
    createPinnedLookup cases host addresses fallback =
      some (.pinned (normalizeHostname cases host) (addresses.map toRecord) 0 fallback) := by
  unfold createPinnedLookup
  rw [if_neg]
  rwa [List.isEmpty_iff]

/-- A policy without exemption resolves what the checks let pass, and nothing else. -/
theorem resolve_ok_iff
    (hpolicy : shouldSkipPrivateNetworkChecks cases (normalizeHostname cases hostname) policy = false) :
    resolvePinnedHostnameWithPolicy cases ip hostname policy lookupFn = .ok pinned ↔
      Admitted cases ip hostname policy lookupFn ∧ ∃ results,
        lookupFn (normalizeHostname cases hostname) = some results ∧
        pinned = ⟨normalizeHostname cases hostname, dedupeAndPreferIpv4 results,
          .pinned (normalizeHostname cases (normalizeHostname cases hostname))
            ((dedupeAndPreferIpv4 results).map toRecord) 0 .system⟩ := by
  unfold resolvePinnedHostnameWithPolicy
  simp only [hpolicy, Bool.not_false, Bool.true_and]
  constructor
  · intro h
    split at h
    · cases h
    rename_i hname
    split at h
    · cases h
    rename_i hlist
    split at h
    · cases h
    rename_i hblocked
    split at h
    · cases h
    rename_i results hlookup
    split at h
    · cases h
    rename_i hempty
    split at h
    · cases h
    rename_i hanswer
    have hresults : results ≠ [] := fun hnil => hempty (List.isEmpty_iff.mpr hnil)
    simp only [createPinnedLookup_eq (dedupeAndPreferIpv4_ne_nil hresults), Except.ok.injEq] at h
    refine ⟨⟨hname, by simpa using hlist, by simpa using hblocked, results, hlookup, hresults,
      fun entry hentry => ?_⟩, results, hlookup, h.symm⟩
    rw [Bool.not_eq_true, any_eq_false] at hanswer
    exact Bool.eq_false_iff.mpr (hanswer entry hentry)
  · rintro ⟨⟨hname, hlist, hblocked, results, hlookup, hresults, hanswer⟩, results', hlookup', rfl⟩
    rw [hlookup] at hlookup'
    cases hlookup'
    have hany : results.any (fun entry => isBlockedHostnameOrIp cases ip entry.address policy) = false :=
      any_eq_false.mpr fun entry hentry => Bool.eq_false_iff.mp (hanswer entry hentry)
    have hempty : results.isEmpty = false := by
      rw [isEmpty_eq_false_iff]
      exact hresults
    simp only [hname, hlist, hblocked, hlookup, hany, hempty, if_false, Bool.not_true, Bool.false_eq_true,
      createPinnedLookup_eq (dedupeAndPreferIpv4_ne_nil hresults)]

theorem resolveOverride_ok {override : PinnedHostnameOverride} {lookup : Lookup}
    (h : resolvePinnedDispatcherLookup cases ip pinned (some override) policy = .ok lookup)
    (hpolicy : shouldSkipPrivateNetworkChecks cases pinned.hostname policy = false) :
    (∀ a ∈ override.addresses, isBlockedHostnameOrIp cases ip a policy = false) ∧
      lookup = .pinned (normalizeHostname cases pinned.hostname) (override.addresses.map toRecord) 0
        pinned.lookup := by
  simp only [resolvePinnedDispatcherLookup, hpolicy, Bool.not_false, Bool.true_and] at h
  split at h
  · cases h
  split at h
  · cases h
  rename_i hanswer
  refine ⟨fun a ha => ?_, ?_⟩
  · rw [Bool.not_eq_true, any_eq_false] at hanswer
    exact Bool.eq_false_iff.mpr (hanswer a ha)
  · by_cases hnil : override.addresses = []
    · simp [createPinnedLookup, hnil] at h
    · rw [createPinnedLookup_eq hnil] at h
      cases h
      rfl

/-! ### Exactly when -/

theorem length_le_sum {l : List String} {s : String} (h : s ∈ l) : s.length ≤ (l.map String.length).sum := by
  induction l with
  | nil => cases h
  | cons a rest ih =>
    rw [map_cons, sum_cons]
    obtain rfl | hrest := mem_cons.mp h
    · exact Nat.le_add_right _ _
    · exact Nat.le_trans (ih hrest) (Nat.le_add_left _ _)

/-- No list has every text: one that is longer than all of them is missing. -/
theorem exists_other (l : List String) : ∃ s, s ∉ l := by
  refine ⟨String.ofList (List.replicate ((l.map String.length).sum + 1) 'x'), fun hmem => ?_⟩
  have hle := length_le_sum hmem
  rw [String.length_ofList, length_replicate] at hle
  omega

/-- What yields the addresses of its records for a name that is stable. -/
theorem yieldsOnly_pinned {host : String} {addresses : List String} {fallback : Lookup} (hne : host ≠ "")
    (hhost : normalizeHostname cases hostname = host) :
    YieldsOnly cases hostname (.pinned host (addresses.map toRecord) 0 fallback) addresses := by
  intro calls hcalls answer hanswer a ha
  have := answers_pinned hne (fun call hcall => (hcalls call hcall).trans hhost) answer hanswer a ha
  rwa [map_toRecord_address] at this

/-! ### A name with two dots at its end -/

/-- Canonical IPv4 addresses and the larger of their ranges; no others are parsed. -/
def fourPartIpaddr : IpaddrJs where
  parseIpv4 := fourParts
  isValidFourPartDecimal s := (fourParts s).isSome
  parseIpv6 _ := none
  rangeIpv4 address :=
    if address >>> 24 == 127 then .loopback
    else if address >>> 24 == 10 || address >>> 20 == 0xac1 || address >>> 16 == 0xc0a8 then .private
    else if address >>> 16 == 0xa9fe then .linkLocal
    else .unicast
  rangeIpv6 _ := .unicast
where
  fourParts (s : String) : Option Ipv4 :=
    let parts := splitDots s.toList
    match parts.map decimalValue with
    | [a, b, c, d] =>
      if parts.all isDigits ∧ a < 256 ∧ b < 256 ∧ c < 256 ∧ d < 256 then
        some (BitVec.ofNat 32 (((a * 256 + b) * 256 + c) * 256 + d))
      else none
    | _ => none

def publicAnswer (_ : String) : Option (List LookupAddress) := some [⟨"93.184.216.34", 4⟩]

/-- What the system's resolver is asked, and answers, later on. -/
def loopbackCall : LookupCall := ⟨"example.com..", .absent, fun _ _ => .one ⟨"127.0.0.1", 4⟩⟩

/-- The name passes the guard, and a lookup of that very name yields a blocked address. -/
theorem two_dots_unvetted :
    shouldSkipPrivateNetworkChecks asciiTables
      (normalizeHostname asciiTables "example.com..") {} = false ∧
    (resolvePinnedHostnameWithPolicy asciiTables fourPartIpaddr "example.com.." {} publicAnswer).toOption.map
      (fun pinned => pinned.lookup.answers asciiTables [loopbackCall]) = some [.one ⟨"127.0.0.1", 4⟩] ∧
    isBlockedHostnameOrIp asciiTables fourPartIpaddr "127.0.0.1" {} = true := by
  decide

/-- Under a policy without exemption, the addresses that a pinned lookup or an override
yields are vetted exactly if the checks stop the name or normalising it once more changes
nothing. -/
theorem pinned_addresses_vetted (cases : CaseTables) (ip : IpaddrJs) (hostname : String) (policy : SsrFPolicy)
    (lookupFn : String → Option (List LookupAddress))
    (hpolicy : shouldSkipPrivateNetworkChecks cases (normalizeHostname cases hostname) policy = false) :
    (VettedResolution cases ip hostname policy lookupFn ∧ VettedOverride cases ip hostname policy lookupFn) ↔
      (Admitted cases ip hostname policy lookupFn →
        normalizeHostname cases (normalizeHostname cases hostname) = normalizeHostname cases hostname) := by
  constructor
  · rintro ⟨hresolution, -⟩ hadmitted
    obtain ⟨-, -, -, results, hlookup, -, -⟩ := id hadmitted
    obtain ⟨results', hlookup', -, -, hyields⟩ :=
      hresolution _ ((resolve_ok_iff hpolicy).mpr ⟨hadmitted, results, hlookup, rfl⟩)
    by_contra hunstable
    -- The name itself goes to the system's resolver, which may answer anything.
    obtain ⟨other, hother⟩ := exists_other (results'.map LookupAddress.address)
    refine hother (hyields [⟨hostname, .absent, fun _ _ => .one ⟨other, 4⟩⟩] ?_ (.one ⟨other, 4⟩) ?_ other ?_)
    · intro call hcall
      rw [mem_singleton.mp hcall]
    · have hsystem := @call_other cases (normalizeHostname cases (normalizeHostname cases hostname))
        ((dedupeAndPreferIpv4 results).map toRecord) 0 .system ⟨hostname, .absent, fun _ _ => .one ⟨other, 4⟩⟩
        (Ne.symm hunstable)
      rw [Lookup.answers, hsystem]
      exact mem_cons_self
    · exact mem_cons_self
  · intro hstable
    constructor
    · intro pinned hpinned
      obtain ⟨hadmitted, results, hlookup, rfl⟩ := (resolve_ok_iff hpolicy).mp hpinned
      obtain ⟨hname, -, -, results', hlookup', hresults, hanswer⟩ := id hadmitted
      rw [hlookup] at hlookup'
      cases hlookup'
      refine ⟨results, hlookup, hresults, hanswer, fun calls hcalls answer hmem a ha => ?_⟩
      rw [hstable hadmitted] at hmem
      exact dedupeAndPreferIpv4_subset a (yieldsOnly_pinned hname rfl calls hcalls answer hmem a ha)
    · intro pinned override lookup hpinned hoverride
      obtain ⟨hadmitted, results, hlookup, hresolved⟩ := (resolve_ok_iff hpolicy).mp hpinned
      have hhost : pinned.hostname = normalizeHostname cases hostname := by rw [hresolved]
      rw [← hhost] at hpolicy
      obtain ⟨hvetted, heq⟩ := resolveOverride_ok hoverride hpolicy
      rw [hhost, hstable hadmitted] at heq
      refine ⟨hvetted, ?_⟩
      rw [heq]
      exact yieldsOnly_pinned hadmitted.1 rfl

theorem pinned_addresses_vetted_one_dot :
    VettedResolution asciiTables fourPartIpaddr " Example.com." {} publicAnswer ∧
      VettedOverride asciiTables fourPartIpaddr " Example.com." {} publicAnswer :=
  (pinned_addresses_vetted asciiTables fourPartIpaddr " Example.com." {} publicAnswer
    (by decide +kernel)).mpr fun _ => by decide +kernel

end OpenClaw.Net
