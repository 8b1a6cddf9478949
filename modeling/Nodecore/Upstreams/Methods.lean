/-
# The method set of an upstream

An upstream starts from the default group of its chain's spec, loses what is
disabled and then gains what the configuration enables, so that `enable` has the
last word.  Both lists may name single methods or whole groups.

The disabled names arrive in the order in which the runtime happens to list a
set.  Removal from a map is insensitive to that order, and the lemmas here say
so once: the outcome depends on the disabled names only as a set.
-/

import Nodecore.Specs.Method

namespace Nodecore.Upstreams

open Lib Specs

/-- The `methods` section of an upstream's configuration. -/
structure MethodsConfig where
  enableMethods : List String := []
  disableMethods : List String := []
  deriving DecidableEq, Repr

/-- The methods an upstream serves, by name. -/
structure UpstreamMethods where
  availableMethods : GoMap String Method
  deriving DecidableEq

namespace UpstreamMethods

def methodNames (methods : UpstreamMethods) : GoSet String :=
  GoSet.ofList methods.availableMethods.keys

def hasMethod (methods : UpstreamMethods) (method : String) : Bool :=
  decide (method ∈ methods.availableMethods)

def getMethod (methods : UpstreamMethods) (methodName : String) : Option Method :=
  methods.availableMethods.lookup methodName

end UpstreamMethods

/-- The methods a chain serves: those of its delegates, in their order. -/
structure ChainMethods where
  delegates : List UpstreamMethods
  availableMethods : GoSet String
  deriving DecidableEq

namespace ChainMethods

def newChainMethods (delegates : List UpstreamMethods) : ChainMethods where
  delegates := delegates
  availableMethods :=
    delegates.foldl (fun available delegate => available.union delegate.methodNames) ∅

def hasMethod (methods : ChainMethods) (method : String) : Bool :=
  methods.availableMethods.contains method

def getMethod (methods : ChainMethods) (methodName : String) : Option Method :=
  (methods.delegates.find? (·.hasMethod methodName)).bind (·.getMethod methodName)

end ChainMethods

/-- Remove one disabled name: a group with all its methods, or a single method. -/
def disableOne (spec : SpecMethods) (available : GoMap String Method) (disabled : String) :
    GoMap String Method :=
  match spec.lookup disabled with
  | some methodGroup => methodGroup.keys.foldl (fun left method => left.erase method) available
  | none => available.erase disabled

/-- Add one enabled name: a group with all its methods, a method of the spec, or
a method the spec does not know. -/
def enableOne (spec : SpecMethods) (specConnectors : List ApiConnectorType)
    (available : GoMap String Method) (enabled : String) : GoMap String Method :=
  match spec.lookup enabled with
  | some methodGroup =>
    methodGroup.entries.foldl (fun left entry => left.insert entry.1 entry.2) available
  | none =>
    match spec.defaultMethods.lookup enabled with
    | some method => available.insert enabled method
    | none =>
      available.insert enabled (defaultMethodWithConnectorTypes enabled specConnectors)

/-- The two loops of `NewUpstreamMethods` over a spec that was found. -/
def composeMethods (spec : SpecMethods) (specConnectors : List ApiConnectorType)
    (config : MethodsConfig) : UpstreamMethods where
  availableMethods :=
    config.enableMethods.foldl (enableOne spec specConnectors)
      (config.disableMethods.foldl (disableOne spec) spec.defaultMethods)

/-- Whether the configuration pins the method on, by its name, its group or one
of the synthetic groups. -/
def isForceEnabled (methodsConfig : MethodsConfig) (method : Method) : Bool :=
  methodsConfig.enableMethods.any fun enabled =>
    enabled == method.name || enabled == defaultMethodGroup ||
      (method.group != "" && enabled == method.group) ||
      (enabled == subMethodGroup && method.isSubscribe)

/-- A disabled name takes a method away: as the method's group or as its name. -/
def disables (spec : SpecMethods) (disabled method : String) : Bool :=
  match spec.lookup disabled with
  | some methodGroup => decide (method ∈ methodGroup.keys)
  | none => decide (method = disabled)

variable (spec : SpecMethods)

theorem entries_disableOne (available : GoMap String Method) (disabled : String) :
    (disableOne spec available disabled).entries =
      available.entries.filter fun entry => !disables spec disabled entry.1 := by
  cases hgroup : spec.lookup disabled with
  | some methodGroup =>
    simp only [disableOne, disables, hgroup]
    rw [GoMap.entries_foldl_erase]
    simp
  | none =>
    simp only [disableOne, disables, hgroup]
    rw [GoMap.entries_erase]
    simp

theorem entries_foldl_disableOne (disabled : List String) (available : GoMap String Method) :
    (disabled.foldl (disableOne spec) available).entries =
      available.entries.filter fun entry => !disabled.any (disables spec · entry.1) := by
  induction disabled generalizing available with
  | nil => simp
  | cons name disabled ih =>
    rw [List.foldl_cons, ih, entries_disableOne, List.filter_filter]
    congr 1
    funext entry
    simp [Bool.and_comm]

theorem composeMethods_congr (specConnectors : List ApiConnectorType) (enableMethods : List String)
    {first second : List String} (same : ∀ name, name ∈ first ↔ name ∈ second) :
    composeMethods spec specConnectors ⟨enableMethods, first⟩ =
      composeMethods spec specConnectors ⟨enableMethods, second⟩ := by
  have disabled : first.foldl (disableOne spec) spec.defaultMethods =
      second.foldl (disableOne spec) spec.defaultMethods := by
    apply AList.ext
    rw [entries_foldl_disableOne, entries_foldl_disableOne]
    congr 1
    funext entry
    congr 1
    rw [Bool.eq_iff_iff, List.any_eq_true, List.any_eq_true]
    simp only [same]
  simp only [composeMethods, disabled]

end Nodecore.Upstreams
