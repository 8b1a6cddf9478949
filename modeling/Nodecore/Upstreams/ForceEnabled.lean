/-
# Which methods a configuration pins on

An upstream sees the spec of its chain through its connectors, whose methods are laid
over one another; a name that one connector has given is left alone by the next.  Such a
view lists every method in its own group, in `default` and, if it subscribes, in `sub`.

The methods of the upstream are composed from the view in a fixed order, all disabled
names before the enabled ones.  `IsForceEnabled` predicts from the method and the
enabled names alone whether it survives everything that may be disabled.
-/

import Nodecore.Upstreams.UpstreamEvents

namespace Nodecore.Upstreams

open Lib Specs

/-- The method that a group lists under a name. -/
def methodIn (spec : SpecMethods) (group name : String) : Option Method :=
  (spec.lookup group).bind (·.lookup name)

/-- The methods of one connector.  The loader files a method under its own name in its own
group, for which it has a default, and an import is merged group by group and name by name, with
the name and the group of a merged method kept.  The synthetic groups are not looked at here. -/
structure MethodGroups where
  byGroup : SpecMethods
  filed : ∀ group name method, group ≠ defaultMethodGroup → group ≠ subMethodGroup →
    methodIn byGroup group name = some method →
      method.name = name ∧ method.group = group ∧ group ≠ ""

/-- A resolved spec.  `none` stands for a pointer that is nil. -/
structure ResolvedSpec where
  methods : Option SpecMethods
  connectors : Option (GoMap ApiConnectorType MethodGroups)

def ensureGroup (spec : SpecMethods) (group : String) : SpecMethods :=
  if group ∈ spec then spec else spec.insert group ∅

def newMethodGroups : SpecMethods := ensureGroup (ensureGroup ∅ defaultMethodGroup) subMethodGroup

def putIn (group name : String) (method : Method) (spec : SpecMethods) : SpecMethods :=
  spec.insert group (((spec.lookup group).getD ∅).insert name method)

/-- A method goes into its group and into the synthetic ones. -/
def putMethod (group name : String) (method : Method) (spec : SpecMethods) : SpecMethods :=
  let listed := putIn defaultMethodGroup name method (putIn group name method spec)
  if method.isSubscribe then putIn subMethodGroup name method listed else listed

/-- The groups put together so far, and the names they have. -/
structure Overlay where
  byGroup : SpecMethods := newMethodGroups
  selectedMethods : GoSet String := ∅

def overlayMethod (groupName : String) (dst : Overlay) (entry : Entry String Method) : Overlay :=
  if dst.selectedMethods.contains entry.1 then dst
  else
    { byGroup := putMethod groupName entry.1 entry.2 dst.byGroup
      selectedMethods := dst.selectedMethods.add entry.1 }

/-- The orders in which the runtime visits the groups of a connector and the methods of a
group. -/
structure OverlayOrder where
  groups : RangeOrder (Entry String (GoMap String Method))
  methods : RangeOrder (Entry String Method)

def overlayGroup (order : OverlayOrder) (dst : Overlay)
    (entry : Entry String (GoMap String Method)) : Overlay :=
  if entry.1 = defaultMethodGroup ∨ entry.1 = subMethodGroup then dst
  else
    (order.methods.visit entry.2.entries).foldl (overlayMethod entry.1)
      { dst with byGroup := ensureGroup dst.byGroup entry.1 }

def overlayMethodGroups (order : OverlayOrder) (dst : Overlay) (src : MethodGroups) : Overlay :=
  (order.groups.visit src.byGroup.entries).foldl (overlayGroup order) dst

def overlayConnector (order : OverlayOrder) (connectors : GoMap ApiConnectorType MethodGroups)
    (dst : Overlay) (connectorType : ApiConnectorType) : Overlay :=
  match connectors.lookup connectorType with
  | none => dst
  | some currentConnectorMethods => overlayMethodGroups order dst currentConnectorMethods

def getSpecMethodsByConnectors (order : OverlayOrder) (spec : Option ResolvedSpec)
    (connectorTypes : List ApiConnectorType) : Option SpecMethods :=
  match spec with
  | none => none
  | some spec =>
    match spec.methods with
    | none => none
    | some methods =>
      if connectorTypes = [] then some methods
      else
        match spec.connectors with
        | none => some newMethodGroups
        | some connectors =>
          some (connectorTypes.foldl (overlayConnector order connectors) {}).byGroup

/-- The groups of a view that list a method. -/
def ListedIn (method : Method) (group : String) : Prop :=
  group = defaultMethodGroup ∨ group = method.group ∨
    (group = subMethodGroup ∧ method.isSubscribe = true)

/-- A view lists a method in all its groups if it does in `default`, under its own name. -/
structure IsView (spec : SpecMethods) : Prop where
  listed : ∀ group name method, methodIn spec group name = some method ↔
    methodIn spec defaultMethodGroup name = some method ∧ ListedIn method group
  named : ∀ name method, methodIn spec defaultMethodGroup name = some method →
    method.name = name ∧ method.group ≠ ""

theorem methodIn_putIn (spec : SpecMethods) (group name : String) (method : Method)
    (group' name' : String) :
    methodIn (putIn group name method spec) group' name' =
      if group' = group ∧ name' = name then some method else methodIn spec group' name' := by
  unfold methodIn putIn
  by_cases sameGroup : group' = group
  · subst sameGroup
    rw [AList.lookup_insert, Option.bind_some]
    by_cases sameName : name' = name
    · subst sameName
      simp
    · rw [AList.lookup_insert_ne sameName, if_neg fun both => sameName both.2]
      cases spec.lookup group' <;> rfl
  · rw [AList.lookup_insert_ne sameGroup, if_neg fun both => sameGroup both.1]

theorem methodIn_putMethod (spec : SpecMethods) (name : String) (method : Method)
    (group' name' : String) [Decidable (ListedIn method group')] :
    methodIn (putMethod method.group name method spec) group' name' =
      if ListedIn method group' ∧ name' = name then some method
      else methodIn spec group' name' := by
  unfold putMethod
  by_cases subscribes : method.isSubscribe = true
  · have groups : ListedIn method group' ↔
        group' = subMethodGroup ∨ group' = defaultMethodGroup ∨ group' = method.group := by
      simp only [ListedIn, subscribes]
      tauto
    simp only [subscribes, if_true, methodIn_putIn, groups]
    split_ifs <;> tauto
  · have groups : ListedIn method group' ↔
        group' = defaultMethodGroup ∨ group' = method.group := by
      simp only [ListedIn, subscribes]
      tauto
    simp only [if_neg subscribes, methodIn_putIn, groups]
    split_ifs <;> tauto

theorem methodIn_ensureGroup (spec : SpecMethods) (group : String) :
    methodIn (ensureGroup spec group) = methodIn spec := by
  funext group' name
  unfold ensureGroup
  split_ifs with present
  · rfl
  · unfold methodIn
    by_cases same : group' = group
    · subst same
      rw [AList.lookup_insert, AList.lookup_eq_none.mpr present]
      rfl
    · rw [AList.lookup_insert_ne same]

theorem methodIn_newMethodGroups (group name : String) :
    methodIn newMethodGroups group name = none := by
  rw [newMethodGroups, methodIn_ensureGroup, methodIn_ensureGroup]
  rfl

/-- `newMethodGroups`, as the loader starts with it. -/
def MethodGroups.new : MethodGroups where
  byGroup := newMethodGroups
  filed group name method _ _ found := by
    rw [methodIn_newMethodGroups] at found
    cases found

/-- `add`, for a method whose group has a name. -/
def MethodGroups.add (groups : MethodGroups) (method : Method) (grouped : method.group ≠ "") :
    MethodGroups where
  byGroup := putMethod method.group method.name method (ensureGroup groups.byGroup method.group)
  filed group name other notDefault notSub found := by
    classical
    rw [methodIn_putMethod, methodIn_ensureGroup] at found
    split_ifs at found with own
    · obtain rfl := Option.some.inj found
      rcases own.1 with isDefault | isOwn | isSub
      · exact absurd isDefault notDefault
      · exact ⟨own.2.symm, isOwn.symm, isOwn ▸ grouped⟩
      · exact absurd isSub.1 notSub
    · exact groups.filed group name other notDefault notSub found

theorem isView_putMethod {spec : SpecMethods} (view : IsView spec) {name : String} {method : Method}
    (fresh : methodIn spec defaultMethodGroup name = none) (named : method.name = name)
    (grouped : method.group ≠ "") : IsView (putMethod method.group name method spec) := by
  classical
  refine ⟨fun group other found => ?_, fun other found => ?_⟩
  · rw [methodIn_putMethod, methodIn_putMethod]
    by_cases same : other = name
    · subst same
      have absent : methodIn spec group other ≠ some found := by
        rw [Ne, view.listed, fresh]
        exact fun held => Option.some_ne_none _ held.1.symm
      have first : ListedIn method defaultMethodGroup := .inl rfl
      by_cases listed : ListedIn method group
      · simp only [listed, first, and_self, if_true, Option.some.injEq]
        exact ⟨fun own => ⟨own, own ▸ listed⟩, fun own => own.1⟩
      · simp only [listed, first, false_and, and_self, if_false, if_true, Option.some.injEq]
        exact ⟨fun held => absurd held absent, fun own => absurd (own.1 ▸ own.2) listed⟩
    · simp only [same, and_false, if_false]
      exact view.listed group other found
  · rw [methodIn_putMethod]
    split_ifs with own
    · rintro ⟨⟩
      exact ⟨named.trans own.2.symm, grouped⟩
    · exact view.named other found

/-- A view that has no other names than the selected ones. -/
structure Overlay.Sound (dst : Overlay) : Prop where
  view : IsView dst.byGroup
  selected : ∀ name, name ∉ dst.selectedMethods → methodIn dst.byGroup defaultMethodGroup name = none

variable {entry : Entry String Method}

theorem sound_overlayMethod {dst : Overlay} (sound : dst.Sound) (named : entry.2.name = entry.1)
    (grouped : entry.2.group ≠ "") : (overlayMethod entry.2.group dst entry).Sound := by
  classical
  unfold overlayMethod
  split_ifs with taken
  · exact sound
  · rw [GoSet.contains_iff] at taken
    have fresh := sound.selected entry.1 taken
    refine ⟨isView_putMethod sound.view fresh named grouped, fun name unselected => ?_⟩
    rw [GoSet.mem_add, not_or] at unselected
    rw [methodIn_putMethod, if_neg fun own => unselected.1 own.2]
    exact sound.selected name unselected.2

theorem methodIn_of_mem {spec : SpecMethods} {group : Entry String (GoMap String Method)}
    (listed : group ∈ spec.entries) (held : entry ∈ group.2.entries) :
    methodIn spec group.1 entry.1 = some entry.2 := by
  have isGroup : spec.lookup group.1 = some group.2 := AList.mem_lookup_iff.mpr listed
  rw [methodIn, isGroup]
  exact AList.mem_lookup_iff.mpr held

theorem sound_overlayMethodGroups (order : OverlayOrder) {dst : Overlay} (sound : dst.Sound)
    (src : MethodGroups) : (overlayMethodGroups order dst src).Sound := by
  refine List.foldlRecOn _ _ sound fun dst sound group listed => ?_
  rw [order.groups.mem_visit] at listed
  unfold overlayGroup
  split_ifs with synthetic
  · exact sound
  · rw [not_or] at synthetic
    refine List.foldlRecOn _ _ ?_ fun dst sound entry held => ?_
    · refine ⟨⟨?_, ?_⟩, ?_⟩
      · rw [methodIn_ensureGroup]
        exact sound.view.listed
      · rw [methodIn_ensureGroup]
        exact sound.view.named
      · rw [methodIn_ensureGroup]
        exact sound.selected
    · rw [order.methods.mem_visit] at held
      obtain ⟨named, own, grouped⟩ := src.filed group.1 entry.1 entry.2 synthetic.1 synthetic.2
        (methodIn_of_mem listed held)
      rw [← own] at grouped ⊢
      exact sound_overlayMethod sound named grouped

theorem sound_newMethodGroups : ({} : Overlay).Sound := by
  have empty := methodIn_newMethodGroups
  refine ⟨⟨fun group name method => ?_, fun name method held => ?_⟩, fun name _ => empty _ name⟩
  · rw [empty, empty]
    exact ⟨fun held => absurd held.symm (Option.some_ne_none _), fun held => held.1⟩
  · rw [empty] at held
    cases held

theorem isView_getSpecMethodsByConnectors {order : OverlayOrder} {resolved : Option ResolvedSpec}
    {connectorTypes : List ApiConnectorType} (connected : connectorTypes ≠ []) {spec : SpecMethods}
    (found : getSpecMethodsByConnectors order resolved connectorTypes = some spec) :
    IsView spec := by
  unfold getSpecMethodsByConnectors at found
  split at found
  · cases found
  · split at found
    · cases found
    · rw [if_neg connected] at found
      split at found
      · cases found
        exact sound_newMethodGroups.view
      · cases found
        refine (List.foldlRecOn _ _ sound_newMethodGroups fun dst sound connectorType _ => ?_
          : Overlay.Sound _).view
        unfold overlayConnector
        split
        · exact sound
        · exact sound_overlayMethodGroups order sound _

theorem lookup_defaultMethods (spec : SpecMethods) (name : String) :
    spec.defaultMethods.lookup name = methodIn spec defaultMethodGroup name := by
  unfold SpecMethods.defaultMethods methodIn
  cases spec.lookup defaultMethodGroup <;> rfl

section Compose

variable {spec : SpecMethods} (view : IsView spec) {name : String} {method : Method}
  (held : methodIn spec defaultMethodGroup name = some method)

include view held

theorem lookup_eq_of_isGroup {group : String} {methodGroup : GoMap String Method}
    (isGroup : spec.lookup group = some methodGroup) {found : Method}
    (own : methodGroup.lookup name = some found) : found = method ∧ ListedIn method group := by
  have listed : methodIn spec group name = some found := by rw [methodIn, isGroup]; exact own
  rw [view.listed, held] at listed
  obtain ⟨⟨⟩, listed⟩ := listed
  exact ⟨rfl, listed⟩

variable (available : GoMap String Method)

/-- An enabled name brings the method in if it is its name or one of its groups, which is what
`disables` says of a disabled name. -/
theorem lookup_enableOne (specConnectors : List ApiConnectorType) (enabled : String) :
    (enableOne spec specConnectors available enabled).lookup name =
      if disables spec enabled name then some method else available.lookup name := by
  unfold enableOne disables
  cases isGroup : spec.lookup enabled with
  | some methodGroup =>
    have loop : (methodGroup.entries.foldl (fun left entry => left.insert entry.1 entry.2)
        available).lookup name =
          (methodGroup.lookup name).elim (available.lookup name) fun found => some found :=
      GoMap.view_foldl_of_nodupKeys (fun available : GoMap String Method => available.lookup name)
        (fun found _ => some found) name
        (fun _ _ _ other => AList.lookup_insert_ne (Ne.symm other))
        (fun available _ => AList.lookup_insert available) methodGroup.nodupKeys available
    dsimp only
    rw [loop]
    cases own : methodGroup.lookup name with
    | none =>
      have absent : name ∉ methodGroup.keys := AList.lookup_eq_none.mp own
      simp [absent]
    | some found =>
      have present : name ∈ methodGroup.keys := AList.lookup_isSome.mp (by rw [own]; rfl)
      simp [present, (lookup_eq_of_isGroup view held isGroup own).1]
  | none =>
    have known : spec.defaultMethods.lookup name = some method := by
      rw [lookup_defaultMethods, held]
    dsimp only
    by_cases same : name = enabled
    · subst same
      simp [known]
    · rw [if_neg (by simpa using same)]
      cases spec.defaultMethods.lookup enabled with
      | none | some other => exact AList.lookup_insert_ne same

theorem lookup_foldl_enableOne (specConnectors : List ApiConnectorType) (enabled : List String) :
    (enabled.foldl (enableOne spec specConnectors) available).lookup name =
      if enabled.any (disables spec · name) then some method else available.lookup name := by
  induction enabled generalizing available with
  | nil => rfl
  | cons first enabled ih =>
    rw [List.foldl_cons, ih, lookup_enableOne view held, List.any_cons]
    by_cases now : disables spec first name = true
    · simp [now]
    · simp [now]

/-- A method of the view is served if an enabled name brings it in or no disabled one takes it
out. -/
theorem lookup_composeMethods (specConnectors : List ApiConnectorType) (config : MethodsConfig) :
    (composeMethods spec specConnectors config).availableMethods.lookup name =
      if config.enableMethods.any (disables spec · name) ||
          !config.disableMethods.any (disables spec · name)
      then some method else none := by
  have left : (config.disableMethods.foldl (disableOne spec) spec.defaultMethods).lookup name =
      if config.disableMethods.any (disables spec · name) then none else some method := by
    apply Option.ext
    intro found
    rw [← Option.mem_def, AList.mem_lookup_iff, entries_foldl_disableOne, List.mem_filter,
      ← AList.mem_lookup_iff, lookup_defaultMethods, held]
    by_cases disabled : config.disableMethods.any (disables spec · name) = true
    · simp [disabled]
    · simp [disabled]
  rw [composeMethods, lookup_foldl_enableOne view held, left]
  by_cases enabled : config.enableMethods.any (disables spec · name) = true
  · simp [enabled]
  · by_cases disabled : config.disableMethods.any (disables spec · name) = true
    · simp [enabled, disabled]
    · simp [enabled, disabled]

variable (apart : ∀ group ∈ spec, methodIn spec defaultMethodGroup group = none)

include apart

omit view in
theorem lookup_eq_none_of_apart : spec.lookup name = none := by
  rw [AList.lookup_eq_none]
  intro isGroup
  rw [apart name isGroup] at held
  cases held

/-- Where no method is called as a group, a name stands for the method if it is its name or a
group that lists it. -/
theorem disables_iff (other : String) :
    disables spec other name = true ↔ other = name ∨ ListedIn method other := by
  have listed : ListedIn method other → methodIn spec other name = some method :=
    fun listed => (view.listed other name method).mpr ⟨held, listed⟩
  unfold disables
  cases isGroup : spec.lookup other with
  | some methodGroup =>
    rw [decide_eq_true_iff]
    constructor
    · intro present
      obtain ⟨found, own⟩ := Option.isSome_iff_exists.mp (AList.lookup_isSome.mpr present)
      exact .inr (lookup_eq_of_isGroup view held isGroup own).2
    · rintro (rfl | own)
      · rw [lookup_eq_none_of_apart held apart] at isGroup
        cases isGroup
      · have found := listed own
        rw [methodIn, isGroup, Option.bind_some] at found
        exact AList.lookup_isSome.mp (by rw [found]; rfl)
  | none =>
    rw [decide_eq_true_iff]
    constructor
    · exact fun same => .inl same.symm
    · rintro (rfl | own)
      · rfl
      · have found := listed own
        rw [methodIn, isGroup] at found
        cases found

theorem isForceEnabled_eq (config : MethodsConfig) :
    isForceEnabled config method = config.enableMethods.any (disables spec · name) := by
  obtain ⟨named, grouped⟩ := view.named name method held
  unfold isForceEnabled
  congr 1
  funext enabled
  rw [Bool.eq_iff_iff, disables_iff view held apart, ListedIn]
  simp only [Bool.or_eq_true, Bool.and_eq_true, beq_iff_eq, bne_iff_ne, named, Ne, grouped,
    not_false_eq_true, true_and]
  tauto

end Compose

namespace UpstreamLoop

section Served

variable {config : UpstreamConfig} (view : IsView config.spec) {name : String} {method : Method}
  (held : methodIn config.spec defaultMethodGroup name = some method)
  (apart : ∀ group ∈ config.spec, methodIn config.spec defaultMethodGroup group = none)
  (order order' : RangeOrder String) (banned unsupported : GoSet String)

include view held apart

theorem getMethod_of_isForceEnabled (forced : isForceEnabled config.methods method = true) :
    (newUpstreamMethods config order order' banned unsupported).getMethod name = some method := by
  rw [isForceEnabled_eq view held apart] at forced
  rw [UpstreamMethods.getMethod, newUpstreamMethods, lookup_composeMethods view held, forced]
  rfl

theorem getMethod_of_taken (taken : name ∈ banned ∨ name ∈ unsupported) :
    (newUpstreamMethods config order order' banned unsupported).getMethod name =
      if isForceEnabled config.methods method then some method else none := by
  have disabled : (unionOf (banned.toSlice order) (unsupported.toSlice order')
      config.methods.disableMethods).any (disables config.spec · name) = true := by
    refine List.any_eq_true.mpr ⟨name, ?_, (disables_iff view held apart name).mpr (.inl rfl)⟩
    rw [mem_unionOf, GoSet.mem_toSlice, GoSet.mem_toSlice]
    exact taken.imp_right .inl
  rw [UpstreamMethods.getMethod, newUpstreamMethods, lookup_composeMethods view held, disabled,
    isForceEnabled_eq view held apart, Bool.not_true, Bool.or_false]

end Served

/-- For a spec seen through connectors, in which no method is called as a group: the
configuration pins a method on exactly if the method is served whatever is banned and whatever
detection finds missing.  A method that is banned or missing and not pinned on is not served. -/
theorem isForceEnabled_iff_always_served (order : OverlayOrder) (resolved : Option ResolvedSpec)
    (connectorTypes : List ApiConnectorType) (connected : connectorTypes ≠ [])
    (config : UpstreamConfig)
    (found : getSpecMethodsByConnectors order resolved connectorTypes = some config.spec)
    (apart : ∀ group ∈ config.spec, methodIn config.spec defaultMethodGroup group = none)
    (group name : String) (method : Method)
    (listed : methodIn config.spec group name = some method) :
    (isForceEnabled config.methods method = true ↔
      ∀ (order order' : RangeOrder String) (banned unsupported : GoSet String),
        (newUpstreamMethods config order order' banned unsupported).getMethod method.name =
          some method) ∧
      ∀ (order order' : RangeOrder String) (banned unsupported : GoSet String),
        method.name ∈ banned ∨ method.name ∈ unsupported →
        isForceEnabled config.methods method = false →
        (newUpstreamMethods config order order' banned unsupported).hasMethod method.name =
          false := by
  have view := isView_getSpecMethodsByConnectors connected found
  have held := ((view.listed group name method).mp listed).1
  obtain rfl := (view.named name method held).1
  refine ⟨⟨fun forced order order' banned unsupported => ?_, fun always => ?_⟩,
    fun order order' banned unsupported taken unforced => ?_⟩
  · exact getMethod_of_isForceEnabled view held apart order order' banned unsupported forced
  · -- the method alone is banned
    have taken : method.name ∈ GoSet.ofList [method.name] :=
      (GoSet.mem_ofList _ _).mpr List.mem_cons_self
    have kept := always (.stored _) (.stored _) (GoSet.ofList [method.name]) ∅
    rw [getMethod_of_taken view held apart _ _ _ _ (.inl taken)] at kept
    by_contra unforced
    rw [if_neg unforced] at kept
    cases kept
  · have gone := getMethod_of_taken view held apart order order' banned unsupported taken
    rw [unforced] at gone
    exact decide_eq_false (AList.lookup_eq_none.mp gone)

def traceBlock : Method := { name := "trace_block", group := "trace" }

def tracingSpec : ResolvedSpec where
  methods := some newMethodGroups
  connectors := some (.singleton .jsonRpcConnector (MethodGroups.new.add traceBlock (by decide)))

def storedOrder : OverlayOrder := ⟨.stored _, .stored _⟩

def tracing : UpstreamConfig where
  id := "node"
  spec := (getSpecMethodsByConnectors storedOrder (some tracingSpec) [.jsonRpcConnector]).getD ∅
  fullSpec := newMethodGroups
  specConnectors := [.jsonRpcConnector]
  methods := { enableMethods := ["trace"] }
  syncingLag := 0
  upstreamIndex := ""
  rateLimiterBudget := none
  autoTuneRateLimiter := none
  labels := ∅

theorem traceBlock_served_while_banned :
    (newUpstreamMethods tracing (.stored _) (.stored _)
      (GoSet.ofList ["trace_block"]) ∅).getMethod "trace_block" = some traceBlock := by
  have apart : ∀ group ∈ tracing.spec.keys,
      methodIn tracing.spec defaultMethodGroup group = none := by decide
  exact (isForceEnabled_iff_always_served storedOrder (some tracingSpec) [.jsonRpcConnector]
    (by decide) tracing rfl apart "trace" "trace_block" traceBlock (by decide)).1.mp (by decide)
    (.stored _) (.stored _) (GoSet.ofList ["trace_block"]) ∅

end UpstreamLoop

end Nodecore.Upstreams
