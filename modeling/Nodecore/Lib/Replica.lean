/-
# Copies that follow a source by messages

A source has several fields.  A message says of some fields what they hold, and
a copy overwrites the fields a message speaks of.  Messages wait in a queue, so
a copy that was just taken from the source may still receive messages older
than itself.  They do no harm: `UpToDate` says that the messages under way,
played onto the source itself, change nothing, and the rules below keep that
along everything the source and its readers do.
-/

import Mathlib.Logic.Basic

namespace Nodecore.Lib

variable {ι μ : Type*} {ν : ι → Type*} (tells : μ → (field : ι) → Option (ν field))

def overwrite (copy : (field : ι) → ν field) (message : μ) : (field : ι) → ν field :=
  fun field => (tells message field).getD (copy field)

def overwriteAll (copy : (field : ι) → ν field) (messages : List μ) : (field : ι) → ν field :=
  messages.foldl (overwrite tells) copy

theorem overwriteAll_append (copy : (field : ι) → ν field) (first second : List μ) :
    overwriteAll tells copy (first ++ second) =
      overwriteAll tells (overwriteAll tells copy first) second := List.foldl_append

theorem overwriteAll_cases (messages : List μ) (field : ι) :
    (∀ copy, overwriteAll tells copy messages field = copy field) ∨
      ∃ value, ∀ copy, overwriteAll tells copy messages field = value := by
  induction messages with
  | nil => exact .inl fun copy => rfl
  | cons message messages ih =>
    rcases ih with alone | ⟨value, decided⟩
    · cases said : tells message field with
      | none =>
        refine .inl fun copy => (alone _).trans ?_
        rw [overwrite, said, Option.getD_none]
      | some value =>
        refine .inr ⟨value, fun copy => (alone _).trans ?_⟩
        rw [overwrite, said, Option.getD_some]
    · exact .inr ⟨value, fun copy => decided _⟩

/-- None of the messages takes anything back: the source would not change if it
received them. -/
def UpToDate (messages : List μ) (source : (field : ι) → ν field) : Prop :=
  overwriteAll tells source messages = source

variable {tells} {source next : (field : ι) → ν field} {messages : List μ}

theorem UpToDate.right {first second : List μ} (upToDate : UpToDate tells (first ++ second) source) :
    UpToDate tells second source := by
  funext field
  have whole := congrFun ((overwriteAll_append tells source first second).symm.trans upToDate) field
  rcases overwriteAll_cases tells second field with alone | ⟨value, decided⟩
  · exact alone source
  · exact (decided source).trans ((decided _).symm.trans whole)

theorem UpToDate.append (upToDate : UpToDate tells messages source) {news : List μ}
    (told : overwriteAll tells source news = next) : UpToDate tells (messages ++ news) next := by
  funext field
  rw [overwriteAll_append]
  have here := congrFun told field
  rcases overwriteAll_cases tells news field with alone | ⟨value, decided⟩
  · -- the field is as before, so the earlier messages still lead to it
    have same : source field = next field := (alone source).symm.trans here
    have before := congrFun upToDate field
    rw [alone]
    rcases overwriteAll_cases tells messages field with kept | ⟨value, decided⟩
    · exact kept next
    · exact (decided next).trans ((decided source).symm.trans (before.trans same))
  · exact (decided _).trans ((decided source).symm.trans here)

end Nodecore.Lib
