/-
# Upstream strategies

A strategy picks the upstream a request is sent to next.  One instance lives for
one request and remembers what it has picked; retries, hedges and fan-out ask it
again, hedges while earlier calls are still running.

A call walks over candidates, group by group.  It reads the state of a candidate
and then, under the lock of the strategy, tests and updates what is already
picked.  A step of the model is one such look, with a moment of its own: calls may
interleave at every candidate, and states, predictions, the set of upstreams and the
answers of rate limiters may be others at each step.
-/

import Nodecore.Flow.Selectors
import Nodecore.Lib.Run
import Nodecore.Protocol.Request
import Nodecore.Protocol.ResponseError

namespace Nodecore.Flow

open Lib Protocol

/-- The upstreams that did not match, with the responses of their matchers. -/
abbrev UpstreamsMatchTrace := List (String × MatchResponse)

def maxMatchTraceCauseLen : ℕ := 200

namespace UpstreamsMatchTrace

def add (trace : UpstreamsMatchTrace) (upstreamId : String) (response : MatchResponse) :
    UpstreamsMatchTrace :=
  if response.type = .successType then trace else trace ++ [(upstreamId, response)]

def cause (trace : UpstreamsMatchTrace) : List UInt8 :=
  if trace.isEmpty then ResponseError.bytes "Response is empty"
  else
    let parts := trace.map fun item => item.1 ++ " - " ++ item.2.cause
    (ResponseError.bytes ("; ".intercalate parts)).take maxMatchTraceCauseLen

end UpstreamsMatchTrace

def selectionError (matchResponse : Option MatchResponse) (trace : UpstreamsMatchTrace) :
    ResponseError :=
  match matchResponse with
  | none => .noAvailableUpstreamsError
  | some (.method method) => .notSupportedMethodError method
  | some .rateLimiter => .rateLimitError
  | some response =>
    if response.type = .selectorType then .noAvailableUpstreamsErrorWithCause trace.cause
    else .noAvailableUpstreamsError

/-- What the selectors of a request add to a strategy.  Both parts read the
upstreams anew whenever they are used. -/
structure StrategyOptions where
  additionalMatchers : RoutingSources → List Matcher := fun _ => []
  order : RoutingSources → Option (List String → List String) := fun _ => none

inductive UpstreamStrategy
  | specificOrder (upstreamIds : List String) (options : StrategyOptions)
  | rating (ups : List String) (options : StrategyOptions)
  | generic (options : StrategyOptions)
  | labelGroup (groups : List (List String)) (passOnError : Bool) (options : StrategyOptions)
  | failing (err : ResponseError)

def newSpecificOrderUpstreamStrategy (upstreamIds : List String) : UpstreamStrategy :=
  .specificOrder upstreamIds {}

/-- What a step of a call reads of its surroundings: the upstreams, the sorted ids
of the chain with the next round-robin index, and the answers of the two rate
limiters of the candidate, a failing budget answering no. -/
structure Moment where
  sources : RoutingSources
  upstreamIds : List String := []
  nextIndex : UInt64 := 0
  budgetAllows : Bool := true
  autoTuneAllows : Bool := true

namespace UpstreamStrategy

def options : UpstreamStrategy → StrategyOptions
  | specificOrder _ options | rating _ options | generic options | labelGroup _ _ options =>
    options
  | failing _ => {}

/-- The candidates of a call in their groups.  Only one strategy has several. -/
def candidates (moment : Moment) : UpstreamStrategy → List (List String)
  | specificOrder upstreamIds _ => if upstreamIds.isEmpty then [] else [upstreamIds]
  | rating ups _ => if ups.isEmpty then [] else [ups]
  | generic _ =>
    if moment.upstreamIds.isEmpty then []
    else
      let pos := moment.nextIndex.toNat % moment.upstreamIds.length
      [moment.upstreamIds.drop pos ++ moment.upstreamIds.take pos]
  | labelGroup groups _ _ => groups
  | failing _ => []

def emptyError : UpstreamStrategy → ResponseError
  | failing err => err
  | _ => .noAvailableUpstreamsError

/-- What a candidate is matched against. -/
def matchers (strategy : UpstreamStrategy) (request : RequestHolder) (sources : RoutingSources) :
    List Matcher :=
  strategy.options.additionalMatchers sources ++ [.status, .method request.method] ++
    if request.isSubscribe then [.wsCap request.method] else []

def arrange (strategy : UpstreamStrategy) (moment : Moment) (upstreamIds : List String) :
    List String :=
  match strategy.options.order moment.sources with
  | none => upstreamIds
  | some order => order upstreamIds

end UpstreamStrategy

/-- Whether a reason replaces the one kept so far. -/
def MatchResponse.replaces (response : MatchResponse) (current : Option MatchResponse) : Bool :=
  match current with
  | none => true
  | some current => decide (response.type.rank < current.type.rank)

/-- The part of a look that runs under the lock: what is picked afterwards, whether
the candidate is now picked by this call, and a new reason. -/
def processMatchedResponse (matched : MatchResponse) (currentReason : Option MatchResponse)
    (selectedUpstreams : GoSet String) (upstreamId : String) (state : UpstreamState)
    (budgetAllows : Bool) : GoSet String × Bool × Option MatchResponse :=
  if selectedUpstreams.contains upstreamId then (selectedUpstreams, false, none)
  else if matched.type = .successType then
    if state.rateLimiterBudget.isSome && !budgetAllows then
      (selectedUpstreams, false, some .rateLimiter)
    else (selectedUpstreams.add upstreamId, true, none)
  else if matched.replaces currentReason then (selectedUpstreams, false, some matched)
  else (selectedUpstreams, false, none)

/-- An upstream with the upstreams as they were when it was picked. -/
structure Selection where
  upstreamId : String
  sources : RoutingSources

/-- Where a call stands: walking over a group, done with it, or returned. -/
inductive Phase
  | filtering (remaining : List String)
  | filtered (selection : Selection)
  | selected (selection : Selection)
  | failed (err : ResponseError)

/-- A call of `SelectUpstream`: the group it is in with the reason and the trace
kept there, the groups that follow, and the reason kept over all groups. -/
structure Call where
  phase : Phase
  idx : ℕ := 0
  later : List (List String) := []
  reason : Option MatchResponse := none
  trace : UpstreamsMatchTrace := []
  currentReason : Option MatchResponse := none

/-- A strategy with the calls made on it.  The cursor is that of label groups. -/
structure StrategyRun where
  selectedUpstreams : GoSet String := ∅
  currentGroupIdx : ℕ := 0
  firstCall : Bool := true
  calls : List Call := []

inductive StrategyEvent
  | selectUpstream (moment : Moment)
  | advance (call : ℕ) (moment : Moment)

namespace UpstreamStrategy

variable (strategy : UpstreamStrategy) (request : RequestHolder)

/-- The call turns to the next group, or gives up when none is left. -/
def enterGroup (moment : Moment) (call : Call) : Call :=
  match call.later with
  | [] => { call with phase := .failed (selectionError call.currentReason call.trace) }
  | group :: later =>
    { call with
      phase := .filtering (strategy.arrange moment group)
      later := later
      reason := none
      trace := [] }

/-- The call has found nothing in its group. -/
def leaveGroup (moment : Moment) (call : Call) : Call :=
  let currentReason :=
    match call.reason with
    | none => call.currentReason
    | some reason => if reason.replaces call.currentReason then some reason else call.currentReason
  strategy.enterGroup moment { call with idx := call.idx + 1, currentReason := currentReason }

/-- The group a new call starts with.  A label group strategy that passes on an
error skips the rest of the group it was in. -/
def startIndex (run : StrategyRun) : ℕ :=
  match strategy with
  | labelGroup _ passOnError _ =>
    if passOnError && !run.firstCall then run.currentGroupIdx + 1 else run.currentGroupIdx
  | _ => 0

def selectUpstream (moment : Moment) (run : StrategyRun) : StrategyRun :=
  match strategy.candidates moment with
  | [] => { run with calls := run.calls ++ [{ phase := .failed strategy.emptyError }] }
  | groups =>
    let idx := strategy.startIndex run
    let call := strategy.enterGroup moment
      { phase := .filtering [], idx := idx, later := groups.drop idx }
    { run with
      currentGroupIdx := idx
      firstCall := false
      calls := run.calls ++ [call] }

/-- A call after its look at a candidate in some state.  The auto-tuned limiter is
asked last, when the candidate is already picked. -/
def settle (moment : Moment) (call : Call) (upstreamId : String) (remaining : List String)
    (state : UpstreamState) (upstreamMatched : Bool) (newReason : Option MatchResponse) : Call :=
  if upstreamMatched then
    if state.autoTuneRateLimiter.isNone || moment.autoTuneAllows then
      { call with phase := .filtered ⟨upstreamId, moment.sources⟩, reason := none }
    else
      { call with
        phase := .filtering remaining
        reason :=
          if MatchResponse.replaces .rateLimiter call.reason then some .rateLimiter
          else call.reason }
  else { call with phase := .filtering remaining, reason := newReason.or call.reason }

/-- One turn of the loop of `filterUpstreams`. -/
def look (moment : Moment) (selectedUpstreams : GoSet String) (call : Call)
    (upstreamId : String) (remaining : List String) : GoSet String × Call :=
  match moment.sources.getUpstreamState upstreamId with
  | none => (selectedUpstreams, { call with phase := .filtering remaining })
  | some state =>
    let matched := multiMatch (strategy.matchers request moment.sources) upstreamId state
    let processed := processMatchedResponse matched call.reason selectedUpstreams upstreamId
      state moment.budgetAllows
    let traced := { call with trace := call.trace.add upstreamId matched }
    (processed.1,
      settle moment traced upstreamId remaining state processed.2.1 processed.2.2)

/-- The next step of a call: what is picked, the cursor, and the call after it.
An empty id stands for no upstream. -/
def advanceCall (moment : Moment) (run : StrategyRun) (call : Call) : GoSet String × ℕ × Call :=
  match call.phase with
  | .filtering [] => leave
  | .filtering (upstreamId :: remaining) =>
    let looked := strategy.look request moment run.selectedUpstreams call upstreamId remaining
    (looked.1, run.currentGroupIdx, looked.2)
  | .filtered selection =>
    if selection.upstreamId = "" then leave
    else (run.selectedUpstreams, call.idx, { call with phase := .selected selection })
  | .selected _ | .failed _ => (run.selectedUpstreams, run.currentGroupIdx, call)
where
  leave : GoSet String × ℕ × Call :=
    let next := strategy.leaveGroup moment call
    (run.selectedUpstreams, if call.later.isEmpty then next.idx else run.currentGroupIdx, next)

def step (run : StrategyRun) : StrategyEvent → StrategyRun
  | .selectUpstream moment => strategy.selectUpstream moment run
  | .advance index moment =>
    match run.calls[index]? with
    | none => run
    | some call =>
      let advanced := strategy.advanceCall request moment run call
      { run with
        selectedUpstreams := advanced.1
        currentGroupIdx := advanced.2.1
        calls := run.calls.set index advanced.2.2 }

/-- The upstream passed every matcher of the strategy in the state read for it. -/
def Accepted (selection : Selection) : Prop :=
  ∃ state, selection.sources.getUpstreamState selection.upstreamId = some state ∧
    ∀ matcher ∈ strategy.matchers request selection.sources,
      matcher.accepts selection.upstreamId state = true

end UpstreamStrategy

/-- The upstream a call has picked, whether or not it has returned it yet. -/
def Call.selection? (call : Call) : Option Selection :=
  match call.phase with
  | .filtered selection | .selected selection => some selection
  | .filtering _ | .failed _ => none

def StrategyRun.selections (run : StrategyRun) : List Selection :=
  run.calls.filterMap (·.selection?)

def StrategyRun.returned (run : StrategyRun) (call : ℕ) : Option Selection :=
  match run.calls[call]? with
  | some { phase := .selected selection, .. } => some selection
  | _ => none

def StrategyRun.picked (run : StrategyRun) (call : ℕ) : Option Selection :=
  run.calls[call]?.bind (·.selection?)

variable {selection : Selection} {selectedUpstreams : GoSet String} {call : ℕ}

theorem StrategyRun.returned_eq_some {run : StrategyRun} :
    run.returned call = some selection ↔
      ∃ isCall, run.calls[call]? = some isCall ∧ isCall.phase = .selected selection := by
  unfold StrategyRun.returned
  constructor
  · intro returned
    split at returned
    · rename_i isCall
      cases returned
      exact ⟨_, isCall, rfl⟩
    · cases returned
  · rintro ⟨⟨phase, idx, later, reason, trace, currentReason⟩, isCall, rfl⟩
    rw [isCall]

theorem StrategyRun.picked_of_returned {run : StrategyRun}
    (returned : run.returned call = some selection) : run.picked call = some selection := by
  obtain ⟨isCall, there, phase⟩ := returned_eq_some.mp returned
  rw [picked, there, Option.bind_some, Call.selection?, phase]

theorem StrategyRun.mem_selections_of_picked {run : StrategyRun}
    (picked : run.picked call = some selection) : selection ∈ run.selections := by
  obtain ⟨isPicked, isCall, picks⟩ := Option.bind_eq_some_iff.mp picked
  exact List.mem_filterMap.mpr ⟨isPicked, List.mem_of_getElem? isCall, picks⟩

theorem StrategyRun.mem_selections_of_returned {run : StrategyRun}
    (returned : run.returned call = some selection) : selection ∈ run.selections :=
  mem_selections_of_picked (picked_of_returned returned)

/-- What a look finds out about a candidate: it is gone, picked before, refused by a
matcher or by one of the limiters, or free to be picked. -/
inductive Verdict
  | absent
  | taken
  | rejected (matched : MatchResponse)
  | overBudget
  | throttled
  | free

namespace Verdict

/-- The reason kept after a look.  A refusal of the budget replaces any other. -/
def reason (currentReason : Option MatchResponse) : Verdict → Option MatchResponse
  | absent | taken => currentReason
  | rejected matched => if matched.replaces currentReason then some matched else currentReason
  | overBudget => some .rateLimiter
  | throttled =>
    if MatchResponse.replaces .rateLimiter currentReason then some .rateLimiter
    else currentReason
  | free => none

/-- A candidate is picked before the auto-tuned limiter is asked. -/
def mark (selectedUpstreams : GoSet String) (upstreamId : String) : Verdict → GoSet String
  | throttled | free => selectedUpstreams.add upstreamId
  | _ => selectedUpstreams

def isFree : Verdict → Bool
  | free => true
  | _ => false

def phase (selection : Selection) (remaining : List String) : Verdict → Phase
  | free => .filtered selection
  | _ => .filtering remaining

theorem isFree_iff {verdict : Verdict} : verdict.isFree = true ↔ verdict = .free := by
  cases verdict <;> simp [isFree]

theorem mem_mark {id : String} (before : id ∈ selectedUpstreams) (verdict : Verdict)
    (upstreamId : String) : id ∈ verdict.mark selectedUpstreams upstreamId := by
  cases verdict <;> simp [mark, before]

end Verdict

namespace UpstreamStrategy

section

variable (strategy : UpstreamStrategy) (request : RequestHolder)

def verdict (moment : Moment) (selectedUpstreams : GoSet String) (upstreamId : String) : Verdict :=
  match moment.sources.getUpstreamState upstreamId with
  | none => .absent
  | some state =>
    let matched := multiMatch (strategy.matchers request moment.sources) upstreamId state
    if selectedUpstreams.contains upstreamId then .taken
    else if matched.type = .successType then
      if state.rateLimiterBudget.isSome && !moment.budgetAllows then .overBudget
      else if state.autoTuneRateLimiter.isNone || moment.autoTuneAllows then .free
      else .throttled
    else .rejected matched

/-- The trace after a look; an upstream that is gone leaves none. -/
def traceLook (sources : RoutingSources) (trace : UpstreamsMatchTrace) (upstreamId : String) :
    UpstreamsMatchTrace :=
  (sources.getUpstreamState upstreamId).elim trace fun state =>
    trace.add upstreamId (multiMatch (strategy.matchers request sources) upstreamId state)

theorem look_eq (moment : Moment) (selectedUpstreams : GoSet String) (call : Call)
    (upstreamId : String) (remaining : List String) :
    strategy.look request moment selectedUpstreams call upstreamId remaining =
      let verdict := strategy.verdict request moment selectedUpstreams upstreamId
      (verdict.mark selectedUpstreams upstreamId,
        { call with
          phase := verdict.phase ⟨upstreamId, moment.sources⟩ remaining
          reason := verdict.reason call.reason
          trace := strategy.traceLook request moment.sources call.trace upstreamId }) := by
  rw [look, verdict, traceLook]
  cases moment.sources.getUpstreamState upstreamId with
  | none => rfl
  | some state =>
    dsimp only [processMatchedResponse, Option.elim]
    -- the branches of the source, each with one verdict
    split_ifs with known success refused allowed replaced
    · simp [settle, Verdict.reason, Verdict.mark, Verdict.phase]
    · simp [settle, Verdict.reason, Verdict.mark, Verdict.phase]
    · simp [settle, Verdict.reason, Verdict.mark, Verdict.phase, allowed]
    · simp [settle, Verdict.reason, Verdict.mark, Verdict.phase, allowed]
    · simp [settle, Verdict.reason, Verdict.mark, Verdict.phase, replaced]
    · simp [settle, Verdict.reason, Verdict.mark, Verdict.phase, replaced]

end

variable {strategy : UpstreamStrategy} {request : RequestHolder}

theorem accepted_of_free {moment : Moment} {upstreamId : String}
    (free : strategy.verdict request moment selectedUpstreams upstreamId = .free) :
    upstreamId ∉ selectedUpstreams ∧ strategy.Accepted request ⟨upstreamId, moment.sources⟩ := by
  unfold verdict at free
  cases read : moment.sources.getUpstreamState upstreamId with
  | none =>
    rw [read] at free
    cases free
  | some state =>
    rw [read] at free
    dsimp only at free
    split_ifs at free with known success refused allowed
    · rw [GoSet.contains_iff] at known
      rw [← MatchResponse.isSuccess_iff_type, isSuccess_multiMatch, List.all_eq_true] at success
      exact ⟨known, state, read, success⟩

@[simp]
theorem selection?_enterGroup (moment : Moment) (call : Call) :
    (strategy.enterGroup moment call).selection? = none := by
  unfold enterGroup
  split
  · rfl
  · rfl

@[simp]
theorem selection?_leaveGroup (moment : Moment) (call : Call) :
    (strategy.leaveGroup moment call).selection? = none :=
  selection?_enterGroup moment _

variable (strategy request) in
/-- What a step of a call can do: keep or drop what the call holds, pick a candidate that
passes and was not picked before, or pick one for nobody, which the auto-tuned limiter
then refuses. -/
inductive Advances (moment : Moment) (selectedUpstreams : GoSet String) (call : Call) :
    GoSet String → Call → Prop
  | keeps {next : Call} (held : next.selection? = call.selection? ∨ next.selection? = none) :
      Advances moment selectedUpstreams call selectedUpstreams next
  | picks {next : Call} {upstreamId : String} (fresh : upstreamId ∉ selectedUpstreams)
      (accepted : strategy.Accepted request ⟨upstreamId, moment.sources⟩)
      (picked : next.selection? = some ⟨upstreamId, moment.sources⟩) :
      Advances moment selectedUpstreams call (selectedUpstreams.add upstreamId) next
  | throttles {next : Call} {upstreamId : String} (dropped : next.selection? = none) :
      Advances moment selectedUpstreams call (selectedUpstreams.add upstreamId) next

theorem advances_look (moment : Moment) (selectedUpstreams : GoSet String) (call : Call)
    (upstreamId : String) (remaining : List String) :
    strategy.Advances request moment selectedUpstreams call
      (strategy.look request moment selectedUpstreams call upstreamId remaining).1
      (strategy.look request moment selectedUpstreams call upstreamId remaining).2 := by
  rw [look_eq]
  dsimp only
  cases found : strategy.verdict request moment selectedUpstreams upstreamId with
  | absent | taken | rejected matched | overBudget => exact .keeps (.inr rfl)
  | throttled => exact .throttles rfl
  | free =>
    obtain ⟨fresh, accepted⟩ := accepted_of_free found
    exact .picks fresh accepted rfl

variable (strategy request) in
theorem advances_advanceCall (moment : Moment) (run : StrategyRun) (call : Call) :
    strategy.Advances request moment run.selectedUpstreams call
      (strategy.advanceCall request moment run call).1
      (strategy.advanceCall request moment run call).2.2 := by
  have left : strategy.Advances request moment run.selectedUpstreams call
      (advanceCall.leave strategy moment run call).1
      (advanceCall.leave strategy moment run call).2.2 :=
    .keeps (.inr (selection?_leaveGroup moment call))
  unfold advanceCall
  split
  · exact left
  · exact advances_look moment _ call _ _
  · rename_i chosen phase
    split_ifs with isEmpty
    · exact left
    · exact .keeps (.inl (by rw [Call.selection?, Call.selection?, phase]))
  · exact .keeps (.inl rfl)
  · exact .keeps (.inl rfl)

theorem accepted_of_advanceCall {moment : Moment} {run : StrategyRun} {call : Call}
    (picked : (strategy.advanceCall request moment run call).2.2.selection? = some selection) :
    call.selection? = some selection ∨ strategy.Accepted request selection := by
  have advances := strategy.advances_advanceCall request moment run call
  generalize strategy.advanceCall request moment run call = advanced at picked advances
  obtain ⟨selectedUpstreams, cursor, next⟩ := advanced
  cases advances with
  | keeps held =>
    rcases held with same | dropped
    · exact .inl (same ▸ picked)
    · rw [dropped] at picked
      cases picked
  | picks fresh accepted isPicked =>
    rw [isPicked] at picked
    cases picked
    exact .inr accepted
  | throttles dropped =>
    rw [dropped] at picked
    cases picked

variable (strategy) in
theorem exists_new_call (moment : Moment) (run : StrategyRun) :
    ∃ call, (strategy.selectUpstream moment run).calls = run.calls ++ [call] ∧
      call.selection? = none := by
  unfold selectUpstream
  split
  · exact ⟨_, rfl, rfl⟩
  · exact ⟨_, rfl, selection?_enterGroup moment _⟩

theorem forall_calls_step {P : Call → Prop} {run : StrategyRun} (all : ∀ call ∈ run.calls, P call)
    (new : ∀ moment, ∃ call, (strategy.selectUpstream moment run).calls = run.calls ++ [call] ∧
      P call)
    (advance : ∀ moment call, P call → P (strategy.advanceCall request moment run call).2.2)
    (event : StrategyEvent) : ∀ call ∈ (strategy.step request run event).calls, P call := by
  intro call member
  cases event with
  | selectUpstream moment =>
    obtain ⟨started, calls, holds⟩ := new moment
    rw [step, calls] at member
    rcases List.mem_append.mp member with old | isNew
    · exact all call old
    · rwa [List.mem_singleton.mp isNew]
  | advance index moment =>
    rw [step] at member
    split at member
    · exact all call member
    · rename_i before isCall
      rcases List.mem_or_eq_of_mem_set member with kept | rfl
      · exact all call kept
      · exact advance moment before (all before (List.mem_of_getElem? isCall))

variable (strategy request) in
def AllAccepted (run : StrategyRun) : Prop :=
  ∀ selection ∈ run.selections, strategy.Accepted request selection

theorem AllAccepted.step {run : StrategyRun} (accepted : strategy.AllAccepted request run)
    (event : StrategyEvent) : strategy.AllAccepted request (strategy.step request run event) := by
  intro selection picked
  obtain ⟨call, member, isSelection⟩ := List.mem_filterMap.mp picked
  have before : ∀ call ∈ run.calls,
      call.selection? = some selection → strategy.Accepted request selection :=
    fun call member holds => accepted selection (List.mem_filterMap.mpr ⟨call, member, holds⟩)
  refine forall_calls_step before ?_ ?_ event call member isSelection
  · intro moment
    obtain ⟨call, calls, unpicked⟩ := strategy.exists_new_call moment run
    exact ⟨call, calls, fun holds => by cases unpicked.symm.trans holds⟩
  · intro moment call before holds
    exact (accepted_of_advanceCall holds).elim before id

variable (strategy request) in
/-- However its calls interleave, the strategy picks only what has a property. -/
def Picks (good : Selection → Prop) : Prop :=
  ∀ state, Reached (strategy.step request) {} state →
    ∀ selection ∈ state.selections, good selection

theorem picks_accepted : strategy.Picks request (strategy.Accepted request) := by
  rintro _ ⟨events, rfl⟩
  have initial : strategy.AllAccepted request {} := by
    intro selection picked
    cases picked
  show strategy.AllAccepted request (run (strategy.step request) {} events)
  exact run_induction (fun _ event accepted => accepted.step event) initial events

theorem Picks.imp {good better : Selection → Prop} (picks : strategy.Picks request good)
    (weaken : ∀ selection, good selection → better selection) : strategy.Picks request better :=
  fun state reached selection picked => weaken selection (picks state reached selection picked)

theorem picks_failing (err : ResponseError) (good : Selection → Prop) :
    (failing err).Picks request good := by
  let failed (run : StrategyRun) : Prop := ∀ call ∈ run.calls, call.phase = .failed err
  have initial : failed {} := by
    intro call member
    cases member
  have preserved (run : StrategyRun) (event : StrategyEvent) (all : failed run) :
      failed ((failing err).step request run event) := by
    refine forall_calls_step all (fun moment => ⟨_, rfl, rfl⟩) ?_ event
    intro moment call stays
    rw [advanceCall, stays]
    exact stays
  rintro _ ⟨events, rfl⟩ selection picked
  obtain ⟨call, member, isSelection⟩ := List.mem_filterMap.mp picked
  have isFailed : call.phase = .failed err :=
    (show failed (run _ {} events) from run_induction preserved initial events) call member
  rw [Call.selection?, isFailed] at isSelection
  cases isSelection

theorem picked_selectUpstream (moment : Moment) (run : StrategyRun) (index : ℕ) :
    (strategy.selectUpstream moment run).picked index = run.picked index := by
  obtain ⟨call, calls, unpicked⟩ := strategy.exists_new_call moment run
  rw [StrategyRun.picked, calls, StrategyRun.picked]
  rcases Nat.lt_trichotomy index run.calls.length with old | new | beyond
  · rw [List.getElem?_append_left old]
  · simp [new, unpicked]
  · rw [List.getElem?_eq_none (by simp; omega), List.getElem?_eq_none beyond.le]

theorem selectedUpstreams_selectUpstream (moment : Moment) (run : StrategyRun) :
    (strategy.selectUpstream moment run).selectedUpstreams = run.selectedUpstreams := by
  unfold selectUpstream
  split
  · rfl
  · rfl

/-- The calls keep to themselves: what one has picked is marked, and no other call
has picked it. -/
structure Exclusive (selectedUpstreams : GoSet String) (picked : ℕ → Option Selection) :
    Prop where
  marked : ∀ {call selection}, picked call = some selection →
    selection.upstreamId ∈ selectedUpstreams
  once : ∀ {call other selection again}, picked call = some selection →
    picked other = some again → selection.upstreamId = again.upstreamId → call = other

theorem Exclusive.mono {marked : GoSet String} {picked kept : ℕ → Option Selection}
    (exclusive : Exclusive selectedUpstreams picked) (more : ∀ id ∈ selectedUpstreams, id ∈ marked)
    (fewer : ∀ call selection, kept call = some selection → picked call = some selection) :
    Exclusive marked kept where
  marked isKept := more _ (exclusive.marked (fewer _ _ isKept))
  once isKept alsoKept := exclusive.once (fewer _ _ isKept) (fewer _ _ alsoKept)

theorem Exclusive.pick {picked : ℕ → Option Selection}
    (exclusive : Exclusive selectedUpstreams picked) (selection : Selection)
    (fresh : selection.upstreamId ∉ selectedUpstreams) (index : ℕ) :
    Exclusive (selectedUpstreams.add selection.upstreamId)
      (Function.update picked index (some selection)) := by
  have old {call : ℕ} {other : Selection} (elsewhere : call ≠ index)
      (isPicked : Function.update picked index (some selection) call = some other) :
      picked call = some other := by
    rwa [Function.update_of_ne elsewhere] at isPicked
  have new {call : ℕ} {other : Selection} (here : call = index)
      (isPicked : Function.update picked index (some selection) call = some other) :
      other = selection := by
    rw [here, Function.update_self] at isPicked
    exact (Option.some.inj isPicked).symm
  constructor
  · intro call other isPicked
    rw [GoSet.mem_add]
    by_cases here : call = index
    · exact .inl (congrArg Selection.upstreamId (new here isPicked))
    · exact .inr (exclusive.marked (old here isPicked))
  · intro call other one again isPicked alsoPicked same
    by_cases here : call = index <;> by_cases there : other = index
    · rw [here, there]
    · rw [new here isPicked] at same
      exact absurd (same ▸ exclusive.marked (old there alsoPicked)) fresh
    · rw [new there alsoPicked] at same
      exact absurd (same ▸ exclusive.marked (old here isPicked)) fresh
    · exact exclusive.once (old here isPicked) (old there alsoPicked) same

theorem StrategyRun.picked_set {run : StrategyRun} {index : ℕ} {call : Call}
    (isCall : run.calls[index]? = some call) (next : Call) (marked : GoSet String) (cursor : ℕ) :
    StrategyRun.picked { run with
      selectedUpstreams := marked
      currentGroupIdx := cursor
      calls := run.calls.set index next } = Function.update run.picked index next.selection? := by
  have inside : index < run.calls.length := (List.getElem?_eq_some_iff.mp isCall).1
  funext other
  rw [StrategyRun.picked]
  by_cases here : other = index
  · simp [here, inside]
  · rw [Function.update_of_ne here, List.getElem?_set_ne (Ne.symm here), StrategyRun.picked]

theorem Exclusive.step {run : StrategyRun}
    (exclusive : Exclusive run.selectedUpstreams run.picked) (event : StrategyEvent) :
    Exclusive (strategy.step request run event).selectedUpstreams
      (strategy.step request run event).picked := by
  cases event with
  | selectUpstream moment =>
    apply exclusive.mono
    · rw [UpstreamStrategy.step, selectedUpstreams_selectUpstream]
      exact fun _ marked => marked
    · intro call selection picked
      rwa [UpstreamStrategy.step, picked_selectUpstream] at picked
  | advance index moment =>
    rw [UpstreamStrategy.step]
    split
    · exact exclusive
    · rename_i call isCall
      have advances := strategy.advances_advanceCall request moment run call
      generalize strategy.advanceCall request moment run call = advanced at advances
      obtain ⟨marked, cursor, next⟩ := advanced
      rw [StrategyRun.picked_set isCall]
      have isHeld : run.picked index = call.selection? := by rw [StrategyRun.picked, isCall]; rfl
      -- a call that drops what it holds picks less than before
      have drop (nothing : next.selection? = none) (other : ℕ) (selection : Selection)
          (picked : Function.update run.picked index next.selection? other = some selection) :
          run.picked other = some selection := by
        by_cases here : other = index
        · rw [here, Function.update_self, nothing] at picked
          cases picked
        · rwa [Function.update_of_ne here] at picked
      cases advances with
      | keeps held =>
        rcases held with same | nothing
        · rw [same, ← isHeld, Function.update_eq_self]
          exact exclusive
        · exact exclusive.mono (fun _ marked => marked) (drop nothing)
      | picks fresh accepted picked =>
        rw [picked]
        exact exclusive.pick ⟨_, moment.sources⟩ fresh index
      | throttles nothing =>
        apply exclusive.mono _ (drop nothing)
        intro id marked
        exact (GoSet.mem_add _ _ _).mpr (.inr marked)

theorem exclusive_of_reached {state : StrategyRun}
    (reached : Reached (strategy.step request) {} state) :
    Exclusive state.selectedUpstreams state.picked := by
  obtain ⟨events, rfl⟩ := reached
  have initial : Exclusive ({} : StrategyRun).selectedUpstreams ({} : StrategyRun).picked := by
    constructor
    · intro call selection picked
      cases picked
    · intro call other selection again picked
      cases picked
  let exclusive (run : StrategyRun) : Prop := Exclusive run.selectedUpstreams run.picked
  have preserved (run : StrategyRun) (event : StrategyEvent) (before : exclusive run) :
      exclusive (strategy.step request run event) := before.step event
  exact run_induction preserved initial events

theorem returned_step {run : StrategyRun} (returned : run.returned call = some selection)
    (event : StrategyEvent) : (strategy.step request run event).returned call = some selection := by
  obtain ⟨isCall, there, phase⟩ := StrategyRun.returned_eq_some.mp returned
  have inside : call < run.calls.length := (List.getElem?_eq_some_iff.mp there).1
  refine StrategyRun.returned_eq_some.mpr ⟨isCall, ?_, phase⟩
  cases event with
  | selectUpstream moment =>
    obtain ⟨new, calls, -⟩ := strategy.exists_new_call moment run
    rw [UpstreamStrategy.step, calls, List.getElem?_append_left inside, there]
  | advance index moment =>
    rw [UpstreamStrategy.step]
    split
    · exact there
    · rename_i other isOther
      by_cases here : index = call
      · -- the call has left its loop and stays as it is
        rw [here, there] at isOther
        cases isOther
        simp [here, inside, advanceCall, phase]
      · rw [List.getElem?_set_ne here, there]

variable (strategy request) in
theorem returned_run {run : StrategyRun} {call : ℕ} {selection : Selection}
    (returned : run.returned call = some selection) (events : List StrategyEvent) :
    (Lib.run (strategy.step request) run events).returned call = some selection := by
  induction events generalizing run with
  | nil => exact returned
  | cons event events ih => exact ih (returned_step returned event)

/-- The status, the method, the capability a subscription needs and everything the
strategy adds, as they were read for an upstream. -/
structure Passed (strategy : UpstreamStrategy) (request : RequestHolder) (selection : Selection)
    (state : UpstreamState) : Prop where
  read : selection.sources.getUpstreamState selection.upstreamId = some state
  available : state.status = .available
  hasMethod : state.upstreamMethods.hasMethod request.method = true
  wsCap : request.isSubscribe = true → state.caps.contains .wsCap = true
  additional : ∀ matcher ∈ strategy.options.additionalMatchers selection.sources,
    matcher.accepts selection.upstreamId state = true

theorem Accepted.passed (accepted : strategy.Accepted request selection) :
    ∃ state, Passed strategy request selection state := by
  obtain ⟨state, read, passed⟩ := accepted
  refine ⟨state, read, ?_, ?_, ?_, ?_⟩
  · exact Matcher.accepts_status.mp (passed .status (by simp [matchers]))
  · exact Matcher.accepts_method.mp (passed (.method request.method) (by simp [matchers]))
  · intro subscribes
    exact Matcher.accepts_wsCap.mp
      (passed (.wsCap request.method) (by simp [matchers, subscribes]))
  · intro matcher member
    exact passed matcher (by simp [matchers, member])

/-- However the calls on a strategy interleave, and whatever each of their steps reads,
no two calls return one upstream, and what is returned passed every matcher in the state
read for it. -/
theorem returned_once_and_passed (strategy : UpstreamStrategy) (request : RequestHolder)
    (events later : List StrategyEvent) (call other : ℕ) (selection again : Selection)
    (returned : (run (strategy.step request) {} events).returned call = some selection)
    (returnedLater :
      (run (strategy.step request) {} (events ++ later)).returned other = some again) :
    (∃ state, Passed strategy request selection state) ∧
      (call ≠ other → selection.upstreamId ≠ again.upstreamId) := by
  rw [run_append] at returnedLater
  have reached : Reached (strategy.step request) {}
      (run (strategy.step request) (run (strategy.step request) {} events) later) :=
    ⟨events ++ later, run_append ..⟩
  have still := StrategyRun.picked_of_returned (strategy.returned_run request returned later)
  constructor
  · exact (picks_accepted _ reached _ (StrategyRun.mem_selections_of_picked still)).passed
  · intro distinct same
    exact distinct ((exclusive_of_reached reached).once still
      (StrategyRun.picked_of_returned returnedLater) same)

end UpstreamStrategy

namespace Hedged

def request : RequestHolder where
  method := "eth_call"

def state : UpstreamState :=
  defaultUpstreamState ⟨AList.singleton "eth_call" { name := "eth_call" }⟩ ∅ "01" none none

def moment : Moment where
  sources := ⟨fun _ => none, fun id => if ["a", "b"].contains id then some state else none⟩
  upstreamIds := ["a", "b"]

def events : List StrategyEvent :=
  [.selectUpstream moment, .selectUpstream moment, .advance 0 moment, .advance 1 moment,
    .advance 0 moment]

def later : List StrategyEvent := [.advance 1 moment, .advance 1 moment]

end Hedged

theorem hedged_calls_return_two_upstreams :
    (∃ state, UpstreamStrategy.Passed (.generic {}) Hedged.request ⟨"a", Hedged.moment.sources⟩
      state) ∧ (0 ≠ 1 → "a" ≠ "b") :=
  UpstreamStrategy.returned_once_and_passed (.generic {}) Hedged.request Hedged.events
    Hedged.later 0 1 ⟨"a", Hedged.moment.sources⟩ ⟨"b", Hedged.moment.sources⟩ rfl rfl

end Nodecore.Flow
