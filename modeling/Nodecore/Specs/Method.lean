/-
# Methods of a chain's method spec

A method spec lists the methods a chain serves, arranged in groups.  Two groups
are synthetic: `default` indexes every method and `sub` every subscription
method.  Only the settings that routing, caching and method selection read are
kept; the jq program of a tag-parser stays a path text, run by a parameter of
the functions that need it.
-/

import Nodecore.Lib.GoMap

namespace Nodecore.Specs

open Lib

/-- The transports an upstream may offer, in the declared order. -/
inductive ApiConnectorType
  | unknownType | jsonRpcConnector | tendermintConnector | restConnector | restIndexer
  | grpcConnector | websocketConnector | restAdditional
  deriving DecidableEq, Repr

/-- How a method is spread over upstreams. -/
inductive DispatchPolicy
  | dispatchDefault | dispatchBroadcast | dispatchMaximumValue | dispatchNotNull
  deriving DecidableEq, Repr

/-- What a tag-parser's jq program is declared to return. -/
inductive ParserReturnType
  | blockNumberType | blockRefType | objectType | stringType | blockRangeType
  deriving DecidableEq, Repr

def ParserReturnType.toString : ParserReturnType → String
  | .blockNumberType => "blockNumber"
  | .blockRefType => "blockRef"
  | .objectType => "object"
  | .stringType => "string"
  | .blockRangeType => "blockRange"

/-- The return type a name stands for; `none` is a name that does not validate. -/
def ParserReturnType.ofString? (name : String) : Option ParserReturnType :=
  [.blockNumberType, .blockRefType, .objectType, .stringType, .blockRangeType].find?
    fun returnType => returnType.toString = name

structure Sticky where
  sendSticky : Bool
  createSticky : Bool
  deriving DecidableEq, Repr

structure Subscription where
  isSubscribe : Bool
  method : String
  unsubMethod : String
  deriving DecidableEq, Repr

/-- A jq path with its declared return type. -/
structure TagParser where
  returnType : ParserReturnType
  path : String
  deriving DecidableEq, Repr

structure Method where
  name : String
  group : String := ""
  subscription : Option Subscription := none
  sticky : Option Sticky := none
  apiConnectorTypes : List ApiConnectorType := []
  parser : Option TagParser := none
  enabled : Bool := true
  cacheable : Bool := false
  enforceIntegrity : Bool := false
  isLocal : Bool := false
  dispatch : DispatchPolicy := .dispatchDefault
  deriving DecidableEq, Repr

namespace Method

def isSubscribe (method : Method) : Bool :=
  match method.subscription with
  | none => false
  | some subscription => subscription.isSubscribe

def isStickySend (method : Method) : Bool :=
  match method.sticky with
  | none => false
  | some sticky => sticky.sendSticky

def isStickyCreate (method : Method) : Bool :=
  match method.sticky with
  | none => false
  | some sticky => sticky.createSticky

end Method

/-- The method served under a name that the spec does not list. -/
def defaultMethodWithConnectorTypes (name : String) (apiConnectorTypes : List ApiConnectorType) :
    Method where
  name := name
  enabled := true
  apiConnectorTypes := apiConnectorTypes

def defaultMethodGroup : String := "default"

def subMethodGroup : String := "sub"

/-- The methods of a spec by group and then by name, as seen through the
connectors of one upstream. -/
abbrev SpecMethods := GoMap String (GoMap String Method)

/-- The synthetic group that indexes every method. -/
def SpecMethods.defaultMethods (spec : SpecMethods) : GoMap String Method :=
  (spec.lookup defaultMethodGroup).getD ∅

end Nodecore.Specs
