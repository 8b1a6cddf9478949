/-
# Request selectors

A client says which upstreams may serve its request by a tree of selectors.  The
leaves test the labels, the head, the slot or the lower bounds of an upstream, or
only ask for an order; the inner nodes are boolean.
-/

import Nodecore.Protocol.Block

namespace Nodecore.Protocol

/-- A block named by a tag.  The source's type is an integer, of which only three
values have a meaning. -/
inductive RequestBlockTag
  | latest | safe | finalized
  | other (tag : Int64)
  deriving DecidableEq, Repr

/-- A selector.  The source treats a missing selector like `any`. -/
inductive RequestSelector
  | any
  | label (name : String) (values : List String)
  | existsLabel (name : String)
  | and (children : List RequestSelector)
  | or (children : List RequestSelector)
  | not (child : RequestSelector)
  | height (height : Int64)
  | blockTag (tag : RequestBlockTag)
  | slotHeight (slotHeight : Int64)
  | lowerHeight (height : Int64) (lowerBoundType : LowerBoundType) (timeOffset : Int64)
      (heightDelta : Int64)
  | unsupported (reason : String)

namespace RequestSelector

@[elab_as_elim, induction_eliminator]
theorem induction {motive : RequestSelector → Prop} (any : motive .any)
    (label : ∀ name values, motive (.label name values))
    (existsLabel : ∀ name, motive (.existsLabel name))
    (and : ∀ children, (∀ child ∈ children, motive child) → motive (.and children))
    (or : ∀ children, (∀ child ∈ children, motive child) → motive (.or children))
    (not : ∀ child, motive child → motive (.not child)) (height : ∀ height, motive (.height height))
    (blockTag : ∀ tag, motive (.blockTag tag))
    (slotHeight : ∀ slotHeight, motive (.slotHeight slotHeight))
    (lowerHeight : ∀ height lowerBoundType timeOffset heightDelta,
      motive (.lowerHeight height lowerBoundType timeOffset heightDelta))
    (unsupported : ∀ reason, motive (.unsupported reason)) (selector : RequestSelector) :
    motive selector :=
  @RequestSelector.rec motive (fun children => ∀ child ∈ children, motive child)
    any label existsLabel and or not height blockTag slotHeight lowerHeight unsupported
    (fun _ member => absurd member List.not_mem_nil)
    (fun _ _ head tail child member =>
      (List.mem_cons.mp member).elim (fun same => same ▸ head) (tail child))
    selector

end RequestSelector

end Nodecore.Protocol
