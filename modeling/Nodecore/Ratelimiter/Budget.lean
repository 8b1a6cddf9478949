/-
# Rate-limit budgets

A budget is a list of rules.  Each rule that matches a request's method becomes
one command for the engine that keeps the counts, under a name made of the
budget's name, the rule's position and what the rule checks.
-/

import Mathlib.Data.List.Sigma
import Nodecore.Lib.KeyTerm

namespace Nodecore.Ratelimiter

open Lib

/-- At most `requests` in a `period` of that many nanoseconds.  The
configuration refuses other values than positive ones. -/
structure FixedRateLimiterType where
  requests : ℕ
  period : ℕ
  requests_pos : 0 < requests
  period_pos : 0 < period

/-- What a rule is for: one method, or those that match a regular expression. -/
inductive RuleCheck
  | ruleCheckMethod (method : String)
  | ruleCheckPattern (pattern : String)
  deriving DecidableEq, Repr

/-- The standard library's regular expressions: whether a text matches. -/
abbrev Regexp := (pattern method : String) → Bool

def RuleCheck.matches (regexp : Regexp) : RuleCheck → (method : String) → Bool
  | .ruleCheckMethod expected, method => expected == method
  | .ruleCheckPattern pattern, method => regexp pattern method

def RuleCheck.name : RuleCheck → String
  | .ruleCheckMethod method => method
  | .ruleCheckPattern pattern => pattern

structure Rule where
  type : FixedRateLimiterType
  check : RuleCheck

structure RateLimitCommand where
  type : FixedRateLimiterType
  name : String

structure RateLimitBudget where
  name : String
  rules : List Rule

namespace RateLimitBudget

variable (budget : RateLimitBudget)

def commandName (index : ℕ) (rule : Rule) : String :=
  budget.name ++ "-" ++ toString index ++ "-" ++ rule.check.name

/-- The commands of one request: one for each rule that matches its method. -/
def commands (regexp : Regexp) (method : String) : List RateLimitCommand :=
  budget.rules.zipIdx.filterMap fun (rule, index) =>
    if rule.check.matches regexp method then some ⟨rule.type, budget.commandName index rule⟩
    else none

theorem mem_commands {regexp : Regexp} {method : String} {command : RateLimitCommand} :
    command ∈ budget.commands regexp method ↔
      ∃ index rule, budget.rules[index]? = some rule ∧ rule.check.matches regexp method = true ∧
        command = ⟨rule.type, budget.commandName index rule⟩ := by
  simp only [commands, List.mem_filterMap, List.mem_zipIdx_iff_getElem?, Prod.exists]
  constructor
  · rintro ⟨rule, index, isRule, isCommand⟩
    split at isCommand
    · rename_i matched
      exact ⟨index, rule, isRule, matched, (Option.some.inj isCommand).symm⟩
    · cases isCommand
  · rintro ⟨index, rule, isRule, matched, rfl⟩
    exact ⟨rule, index, isRule, if_pos matched⟩

/-- No two rules of a budget are counted under one name. -/
theorem commandName_inj {index other : ℕ} {rule otherRule : Rule}
    (same : budget.commandName index rule = budget.commandName other otherRule) :
    index = other := by
  have texts := congrArg String.toList same
  simp only [commandName, String.toList_append, List.append_assoc, List.append_cancel_left_eq]
    at texts
  exact toString_nat_inj (append_cons_inj_of_not_mem (not_mem_toString_nat (by decide) index)
    (not_mem_toString_nat (by decide) other) texts).1

theorem nodup_commands (regexp : Regexp) (method : String) :
    ((budget.commands regexp method).map RateLimitCommand.name).Nodup := by
  have indices : budget.rules.zipIdx.Pairwise fun first second => first.2 ≠ second.2 :=
    List.pairwise_map.mp (List.nodup_zipIdx_map_snd budget.rules)
  rw [commands, List.map_filterMap]
  apply List.Pairwise.filterMap _ _ indices
  rintro ⟨rule, index⟩ ⟨otherRule, other⟩ distinct name isName otherName isOtherName same
  simp only [Option.map_eq_some_iff, Option.ite_none_right_eq_some, Option.some.injEq]
    at isName isOtherName
  obtain ⟨_, ⟨_, rfl⟩, rfl⟩ := isName
  obtain ⟨_, ⟨_, rfl⟩, rfl⟩ := isOtherName
  exact distinct (budget.commandName_inj same)

end RateLimitBudget

end Nodecore.Ratelimiter
