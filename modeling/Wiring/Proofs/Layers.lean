import Wiring.Config.Source

/-!
# Layers of settings

Options take from a source what it has and keep the rest. Since what is read from a setting does not
depend on the options, sources that are applied one after the other are as good as one source in
which the later ones come first.

Results:
1. `Options.withSource_eq_ok_iff`: what it takes for a source to be accepted, and what comes out.
2. `Options.Taken.over`, `Options.Taken.again`: two layers are one, and a layer counts once.
3. `Options.withSource_layered`: the same for sources that hold their settings as text.
-/

namespace Wiring

/-- The settings of two sources; where both have a key, the first counts. -/
def Source.over (above below : Source) : Source :=
  fun key => (above key).or (below key)

namespace MapSource

theorem get?_union (a b : MapSource) : (a.union b).get? = Source.over b.get? a.get? := by
  funext key
  simp only [get?, union, Source.over, List.lookup_append]
  cases b.entries.lookup key with
  | none => rfl
  | some value => rfl

theorem get?_eq_none_of_not_mem_keys {m : MapSource} {key : String} (h : key ∉ m.keys) :
    m.get? key = none := by
  rw [get?, Option.map_eq_none_iff, List.lookup_eq_none_iff]
  intro e he
  rw [bne_iff_ne]
  rintro rfl
  refine h ?_
  rw [keys, List.mem_mergeSort, List.mem_eraseDups]
  exact List.mem_map_of_mem he

end MapSource

namespace Options

/-! ## One setting -/

section Take

variable {α : Type} {above below source : Source} {key : String}
  {read : Setting → Except Error α} {a b c : α}

theorem take_over (h : take below key read a = .ok b) (h' : take above key read b = .ok c) :
    take (above.over below) key read a = .ok c := by
  unfold take Source.over at *
  cases habove : above key with
  | none =>
    rw [habove] at h'
    obtain rfl := Except.ok.inj h'
    exact h
  | some s =>
    rw [habove] at h'
    exact h'

theorem take_again (h : take source key read a = .ok b) : take source key read b = .ok b := by
  unfold take at *
  cases hsource : source key with
  | none => rfl
  | some s =>
    rw [hsource] at h
    exact h

theorem take_absent (h : take source key read a = .ok b) (hkey : source key = none) : b = a := by
  rw [take, hkey] at h
  exact (Except.ok.inj h).symm

end Take

/-! ## All settings -/

/-- What becomes of options under a source that they accept: each setting is taken, the limit is in
its bounds, and what a source cannot set stays. -/
structure Taken (source : Source) (o o' : Options) : Prop where
  assume : take source "assume_framework_services_registered" Setting.asBoolean
    o.assumeFramework = .ok o'.assumeFramework
  depth : take source "max_resolution_depth" readDepth o.maxDepth = .ok o'.maxDepth
  policy : take source "trace_errors" readPolicy o.traceErrors = .ok o'.traceErrors
  names : take source "framework_services" readNames o.frameworkServices = .ok o'.frameworkServices
  bounds : 1 ≤ o'.maxDepth ∧ o'.maxDepth ≤ Resolvability.maxDepth
  severities : o'.severityOverrides = o.severityOverrides
  rules : o'.disabledRules = o.disabledRules

theorem validated_eq_ok_iff {o o' : Options} :
    o.validated = .ok o' ↔ (1 ≤ o.maxDepth ∧ o.maxDepth ≤ Resolvability.maxDepth) ∧ o = o' := by
  unfold validated
  split <;> simp [*]

theorem bind_eq_ok_iff {α β : Type} {x : Except Error α} {f : α → Except Error β} {b : β} :
    (x >>= f) = .ok b ↔ ∃ a, x = .ok a ∧ f a = .ok b := by
  cases x with
  | error e =>
    constructor
    · intro h
      cases h
    · rintro ⟨a, h, -⟩
      cases h
  | ok a =>
    constructor
    · intro h
      exact ⟨a, rfl, h⟩
    · rintro ⟨a', h, hf⟩
      cases h
      exact hf

/-- The settings are read one after the other, and then the limit is looked at. -/
theorem withSource_eq_ok_iff {source : Source} {o o' : Options} :
    o.withSource source = .ok o' ↔ Taken source o o' := by
  unfold withSource
  simp only [bind_eq_ok_iff, validated_eq_ok_iff]
  constructor
  · rintro ⟨assume, hassume, depth, hdepth, policy, hpolicy, names, hnames, hbounds, rfl⟩
    exact ⟨hassume, hdepth, hpolicy, hnames, hbounds, rfl, rfl⟩
  · rintro ⟨hassume, hdepth, hpolicy, hnames, hbounds, hseverities, hrules⟩
    refine ⟨_, hassume, _, hdepth, _, hpolicy, _, hnames, hbounds, ?_⟩
    rw [← hseverities, ← hrules]

/-- Two layers are one. -/
theorem Taken.over {above below : Source} {o o₁ o₂ : Options} (h : Taken below o o₁)
    (h' : Taken above o₁ o₂) : Taken (above.over below) o o₂ where
  assume := take_over h.assume h'.assume
  depth := take_over h.depth h'.depth
  policy := take_over h.policy h'.policy
  names := take_over h.names h'.names
  bounds := h'.bounds
  severities := h'.severities.trans h.severities
  rules := h'.rules.trans h.rules

/-- A layer counts once. -/
theorem Taken.again {source : Source} {o o₁ : Options} (h : Taken source o o₁) :
    Taken source o₁ o₁ where
  assume := take_again h.assume
  depth := take_again h.depth
  policy := take_again h.policy
  names := take_again h.names
  bounds := h.bounds
  severities := rfl
  rules := rfl

/-- What a source of texts changes: of the settings only those of which it has the key, with a limit
between 1 and 1024 in the end. -/
structure Updated (m : MapSource) (o o' : Options) : Prop where
  depth_bounds : 1 ≤ o'.maxDepth ∧ o'.maxDepth ≤ 1024
  severities : o'.severityOverrides = o.severityOverrides
  rules : o'.disabledRules = o.disabledRules
  assume : "assume_framework_services_registered" ∉ m.keys → o'.assumeFramework = o.assumeFramework
  depth : "max_resolution_depth" ∉ m.keys → o'.maxDepth = o.maxDepth
  policy : "trace_errors" ∉ m.keys → o'.traceErrors = o.traceErrors
  names : "framework_services" ∉ m.keys → o'.frameworkServices = o.frameworkServices

theorem Taken.updated {m : MapSource} {o o' : Options} (h : Taken m.get? o o') :
    Updated m o o' where
  depth_bounds := h.bounds
  severities := h.severities
  rules := h.rules
  assume hkey := take_absent h.assume (m.get?_eq_none_of_not_mem_keys hkey)
  depth hkey := take_absent h.depth (m.get?_eq_none_of_not_mem_keys hkey)
  policy hkey := take_absent h.policy (m.get?_eq_none_of_not_mem_keys hkey)
  names hkey := take_absent h.names (m.get?_eq_none_of_not_mem_keys hkey)

/-- Sources are layers, and the last one that has a setting counts. Two sources that are accepted
one after the other give what their union gives, in which the second comes first. A source that is
accepted changes only what it sets and leaves the limit in its bounds. Applied twice, a source gives
what it gives once, be it options or an error. -/
theorem withSource_layered (o : Options) (a b : MapSource) :
    (∀ o₁ o₂, o.withSource a.get? = .ok o₁ → o₁.withSource b.get? = .ok o₂ →
      o.withSource (a.union b).get? = .ok o₂) ∧
    (∀ o₁, o.withSource a.get? = .ok o₁ → Updated a o o₁) ∧
    (o.withSource a.get? >>= fun o₁ => o₁.withSource a.get?) = o.withSource a.get? := by
  refine ⟨fun o₁ o₂ h₁ h₂ => ?_, fun o₁ h => ?_, ?_⟩
  · rw [withSource_eq_ok_iff] at h₁ h₂ ⊢
    rw [MapSource.get?_union]
    exact h₁.over h₂
  · exact (withSource_eq_ok_iff.1 h).updated
  · cases h : o.withSource a.get? with
    | error e => rfl
    | ok o₁ => exact withSource_eq_ok_iff.2 (withSource_eq_ok_iff.1 h).again

/-- The second source sets the limit anew, at its bound, and brings the names of services. -/
theorem layered_with_overlap :
    let a : MapSource := ⟨[("trace_errors", "FAIL"), ("max_resolution_depth", "64")]⟩
    let b : MapSource :=
      ⟨[("max_resolution_depth", "+1024"), ("framework_services", " IClock, ,ITenantContext,")]⟩
    let o₁ : Options := ⟨true, [], 64, .fail, [], []⟩
    let o₂ : Options := ⟨true, ["IClock", "ITenantContext"], 1024, .fail, [], []⟩
    default.withSource a.get? = .ok o₁ ∧ o₁.withSource b.get? = .ok o₂ ∧
      default.withSource (a.union b).get? = .ok o₂ := by
  intro a b o₁ o₂
  have h₁ : default.withSource a.get? = .ok o₁ := rfl
  have h₂ : o₁.withSource b.get? = .ok o₂ := rfl
  exact ⟨h₁, h₂, (withSource_layered default a b).1 o₁ o₂ h₁ h₂⟩

end Options

end Wiring
