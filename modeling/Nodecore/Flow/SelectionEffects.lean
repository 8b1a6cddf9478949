/-
# What a selection spends

A look at a candidate leaves two things behind.  The candidate is marked, so that no later
call picks it, and its budget gives tokens away.  Both are meant for a request that is then
sent to the upstream.

The budget is asked first, the candidate is marked, and the auto-tuned limiter is asked
last; nothing is taken back when it refuses.  A walk for a result other than null collects
all its upstreams before it asks the first, and gives nothing back either.  The looks of a
run are recorded here with what they spend, and the main result says exactly when nothing
is spent in vain.
-/

import Nodecore.Flow.NotNull

namespace Nodecore.Flow

open Lib Protocol Specs

/-- How a budget answers.  Each of its rules that matches the method has a token left or
has none.  The memory engine takes one from rule after rule up to the first that has none;
Redis counts the request under every rule, and may fail when some of them are counted. -/
inductive BudgetAnswer
  | memory (rules : List Bool)
  | redis (rules : List Bool)
  | redisFailed (counted : ℕ)

namespace BudgetAnswer

def allowed : BudgetAnswer → Bool
  | memory rules | redis rules => rules.all id
  | redisFailed _ => false

def tokens : BudgetAnswer → ℕ
  | memory rules => (rules.takeWhile id).length
  | redis rules => rules.length
  | redisFailed counted => counted

end BudgetAnswer

/-- The budget is asked once the candidate has matched. -/
def Verdict.asksBudget : Verdict → Bool
  | .overBudget | .throttled | .free => true
  | _ => false

def Verdict.marks : Verdict → Bool
  | .throttled | .free => true
  | _ => false

/-- A look of a call at a candidate, with the tokens its budget gave. -/
structure Look where
  call : ℕ
  upstreamId : String
  verdict : Verdict
  tokens : ℕ

/-- What the look spends does not go to a request: the auto-tuned limiter refuses when the
candidate is already marked, the budget refuses when some of its rules have given a token,
or the id picked is the empty one, which stands for no upstream. -/
def Look.wastes (look : Look) : Bool :=
  match look.verdict with
  | .throttled => true
  | .overBudget => decide (0 < look.tokens)
  | .free => look.upstreamId == ""
  | .absent | .taken | .rejected _ => false

/-- A strategy with the looks of its calls. -/
structure Charged where
  run : StrategyRun := {}
  looks : List Look := []

/-- A step of a strategy with what the budget of the candidate answers in it. -/
structure ChargedEvent where
  event : StrategyEvent
  answer : BudgetAnswer := .memory []

def ChargedEvent.toEvent (charged : ChargedEvent) : StrategyEvent :=
  match charged.event with
  | .selectUpstream moment => .selectUpstream moment
  | .advance call moment => .advance call { moment with budgetAllows := charged.answer.allowed }

/-- The candidate a call looks at next. -/
def Call.candidate? (call : Call) : Option String :=
  match call.phase with
  | .filtering remaining => remaining.head?
  | _ => none

def Call.isEnded (call : Call) : Bool :=
  match call.phase with
  | .selected _ | .failed _ => true
  | .filtering _ | .filtered _ => false

/-- What the calls have returned, in the order in which they were made. -/
def StrategyRun.returnedIds (run : StrategyRun) : List String :=
  run.calls.filterMap fun call =>
    match call.phase with
    | .selected selection => some selection.upstreamId
    | _ => none

namespace UpstreamStrategy

variable (strategy : UpstreamStrategy) (request : RequestHolder)

/-- Whether the upstream has a budget, in the state a look reads. -/
def hasBudget (moment : Moment) (upstreamId : String) : Bool :=
  (moment.sources.getUpstreamState upstreamId).any (·.rateLimiterBudget.isSome)

/-- The look that a step is, if it is one. -/
def lookOf (run : StrategyRun) (answer : BudgetAnswer) : StrategyEvent → Option Look
  | .selectUpstream _ => none
  | .advance index moment =>
    (run.calls[index]?.bind (·.candidate?)).map fun upstreamId =>
      let verdict := strategy.verdict request moment run.selectedUpstreams upstreamId
      { call := index
        upstreamId := upstreamId
        verdict := verdict
        tokens := if verdict.asksBudget && hasBudget moment upstreamId then answer.tokens else 0 }

def chargedStep (state : Charged) (charged : ChargedEvent) : Charged where
  run := strategy.step request state.run charged.toEvent
  looks :=
    state.looks ++ (strategy.lookOf request state.run charged.answer charged.toEvent).toList

end UpstreamStrategy

/-- The upstreams the request is sent to, of those the calls have returned.  A not-null
request walks over them; any other is sent to each that can be reached. -/
def sentTo (dispatch : DispatchPolicy) (cancelled : ℕ → Option String) (reply : String → Reply)
    (returned : List String) : List String :=
  match dispatch with
  | .dispatchNotNull => (Walk.processUpstreams cancelled reply 0 {} returned).asked
  | _ => returned.filter fun id => (reply id).isSent

variable {state : Charged} {id : String} {call : Call} {look : Look}

namespace Walk

variable {cancelled : ℕ → Option String} {reply : String → Reply}

theorem mem_ask_iff {walk : Walk} {upstreamID : String} {reply : Reply} :
    id ∈ walk.ask upstreamID reply ↔
      id ∈ walk.asked ∨ reply.isSent = true ∧ id = upstreamID := by
  unfold ask
  split_ifs with isSent
  · simp [isSent]
  · simp [isSent]

/-- The turn of an upstream comes: the context is not done up to it, and no upstream before it has
a result other than null. -/
def HasTurn (cancelled : ℕ → Option String) (reply : String → Reply) (round : ℕ)
    (upstreamIDs : List String) (id : String) : Prop :=
  ∃ before after, upstreamIDs = before ++ id :: after ∧
    (∀ turn ≤ before.length, cancelled (round + turn) = none) ∧
    ∀ earlier ∈ before, (reply earlier).nonNull? = none

theorem hasTurn_cons {round : ℕ} {upstreamID : String} {upstreamIDs : List String} :
    HasTurn cancelled reply round (upstreamID :: upstreamIDs) id ↔
      cancelled round = none ∧ (id = upstreamID ∨
        (reply upstreamID).nonNull? = none ∧
          HasTurn cancelled reply (round + 1) upstreamIDs id) := by
  have shift (turn : ℕ) : round + 1 + turn = round + (turn + 1) := by omega
  constructor
  · rintro ⟨before, after, split, inTime, unanswered⟩
    refine ⟨inTime 0 (Nat.zero_le _), ?_⟩
    cases before with
    | nil =>
      cases split
      exact .inl rfl
    | cons earlier before =>
      cases split
      rw [List.forall_mem_cons] at unanswered
      refine .inr ⟨unanswered.1, before, after, rfl, fun turn upTo => ?_, unanswered.2⟩
      rw [shift]
      exact inTime (turn + 1) (Nat.succ_le_succ upTo)
  · rintro ⟨now, rfl | ⟨unanswered, before, after, rfl, inTime, earlier⟩⟩
    · exact ⟨[], upstreamIDs, rfl, by simpa using now, List.forall_mem_nil _⟩
    · refine ⟨upstreamID :: before, after, rfl, fun turn upTo => ?_,
        List.forall_mem_cons.mpr ⟨unanswered, earlier⟩⟩
      cases turn with
      | zero => exact now
      | succ turn =>
        rw [← shift]
        exact inTime turn (Nat.le_of_succ_le_succ upTo)

theorem mem_asked_iff {round : ℕ} {walk : Walk} {upstreamIDs : List String} :
    id ∈ (processUpstreams cancelled reply round walk upstreamIDs).asked ↔
      id ∈ walk.asked ∨
        (reply id).isSent = true ∧ HasTurn cancelled reply round upstreamIDs id := by
  induction upstreamIDs generalizing round walk with
  | nil => simp [processUpstreams, finish, HasTurn]
  | cons upstreamID upstreamIDs ih =>
    rw [processUpstreams, hasTurn_cons]
    cases cancelled round with
    | some text => simp
    | none =>
      cases answers : (reply upstreamID).nonNull? with
      | some response =>
        dsimp only
        rw [mem_ask_iff]
        grind
      | none =>
        dsimp only
        rw [ih, asked_see, mem_ask_iff]
        grind

end Walk

/-- A request comes to an upstream: it can be reached, and where the request is walked over the
upstreams its turn comes. -/
def Comes (dispatch : DispatchPolicy) (cancelled : ℕ → Option String) (reply : String → Reply)
    (returned : List String) (id : String) : Prop :=
  (reply id).isSent = true ∧
    (dispatch = .dispatchNotNull → Walk.HasTurn cancelled reply 0 returned id)

theorem mem_sentTo_iff {dispatch : DispatchPolicy} {cancelled : ℕ → Option String}
    {reply : String → Reply} {returned : List String} :
    id ∈ sentTo dispatch cancelled reply returned ↔
      id ∈ returned ∧ Comes dispatch cancelled reply returned id := by
  unfold sentTo Comes
  split
  · rw [Walk.mem_asked_iff]
    constructor
    · rintro (nothing | ⟨isSent, hasTurn⟩)
      · cases nothing
      · refine ⟨?_, isSent, fun _ => hasTurn⟩
        obtain ⟨before, after, split, -⟩ := hasTurn
        exact split ▸ List.mem_append_right _ List.mem_cons_self
    · rintro ⟨-, isSent, hasTurn⟩
      exact .inr ⟨isSent, hasTurn rfl⟩
  · rename_i other
    rw [List.mem_filter]
    exact and_congr_right fun _ => ⟨fun isSent => ⟨isSent, fun same => absurd same other⟩, And.left⟩

variable {selectedUpstreams : GoSet String}

namespace Verdict

theorem mem_mark_iff {verdict : Verdict} {upstreamId : String} :
    id ∈ verdict.mark selectedUpstreams upstreamId ↔
      id ∈ selectedUpstreams ∨ (verdict.marks = true ∧ upstreamId = id) := by
  cases verdict <;> simp [mark, marks, or_comm, eq_comm]

end Verdict

theorem StrategyRun.mem_returnedIds {run : StrategyRun} :
    id ∈ run.returnedIds ↔
      ∃ call selection, run.returned call = some selection ∧ selection.upstreamId = id := by
  simp only [returnedIds, List.mem_filterMap, returned_eq_some]
  constructor
  · rintro ⟨call, member, isReturned⟩
    obtain ⟨index, isCall⟩ := List.mem_iff_getElem?.mp member
    split at isReturned
    · rename_i selection phase
      exact ⟨index, selection, ⟨call, isCall, phase⟩, Option.some.inj isReturned⟩
    · cases isReturned
  · rintro ⟨index, selection, ⟨call, isCall, phase⟩, rfl⟩
    exact ⟨call, List.mem_of_getElem? isCall, by rw [phase]⟩

namespace UpstreamStrategy

variable {strategy : UpstreamStrategy} {request : RequestHolder}

theorem fresh_of_marks {moment : Moment} {upstreamId : String}
    (marks : (strategy.verdict request moment selectedUpstreams upstreamId).marks = true) :
    upstreamId ∉ selectedUpstreams := by
  unfold verdict at marks
  split at marks
  · cases marks
  · dsimp only at marks
    split at marks
    · cases marks
    · rename_i unknown
      rwa [GoSet.contains_iff] at unknown

variable (strategy request) in
/-- What a step can do to the marks and to what the calls hold: nothing but drop an empty
id, or look at a candidate. -/
inductive Charges (state : Charged) : Charged → Prop
  | keeps {next : Charged} (looks : next.looks = state.looks)
      (marked : next.run.selectedUpstreams = state.run.selectedUpstreams)
      (held : ∀ {call selection}, next.run.picked call = some selection →
        state.run.picked call = some selection)
      (stays : ∀ {call selection}, state.run.picked call = some selection →
        selection.upstreamId ≠ "" → next.run.picked call = some selection) : Charges state next
  | looks {next : Charged} (look : Look) (sources : RoutingSources)
      (looks : next.looks = state.looks ++ [look])
      (marked : next.run.selectedUpstreams =
        look.verdict.mark state.run.selectedUpstreams look.upstreamId)
      (fresh : look.verdict.marks = true → look.upstreamId ∉ state.run.selectedUpstreams)
      (free : state.run.picked look.call = none)
      (picked : next.run.picked = Function.update state.run.picked look.call
        (if look.verdict.isFree then some ⟨look.upstreamId, sources⟩ else none))
      (asked : 0 < look.tokens → look.verdict.asksBudget = true) : Charges state next

theorem picked_eq_selection? {run : StrategyRun} {index : ℕ}
    (isCall : run.calls[index]? = some call) : run.picked index = call.selection? := by
  rw [StrategyRun.picked, isCall, Option.bind_some]

theorem charges_of_set {index : ℕ} (isCall : state.run.calls[index]? = some call) (next : Call)
    (cursor : ℕ)
    (held : ∀ {selection}, next.selection? = some selection → call.selection? = some selection)
    (stays : ∀ {selection}, call.selection? = some selection → selection.upstreamId ≠ "" →
      next.selection? = some selection) :
    Charges state
      { run := { state.run with
          currentGroupIdx := cursor
          calls := state.run.calls.set index next }
        looks := state.looks } := by
  have picked := StrategyRun.picked_set isCall next state.run.selectedUpstreams cursor
  refine .keeps rfl rfl ?_ ?_
  · intro other selection holds
    rw [picked] at holds
    by_cases here : other = index
    · rw [here, Function.update_self] at holds
      rw [here, picked_eq_selection? isCall]
      exact held holds
    · rwa [Function.update_of_ne here] at holds
  · intro other selection holds named
    rw [picked]
    by_cases here : other = index
    · rw [here, picked_eq_selection? isCall] at holds
      rw [here, Function.update_self]
      exact stays holds named
    · rwa [Function.update_of_ne here]

theorem selection?_of_phase (call : Call) (verdict : Verdict) (selection : Selection)
    (remaining : List String) (reason : Option MatchResponse) (trace : UpstreamsMatchTrace) :
    Call.selection? { call with
      phase := verdict.phase selection remaining, reason := reason, trace := trace } =
      if verdict.isFree then some selection else none := by
  cases verdict <;> rfl

variable (strategy request) in
theorem charges_advance (state : Charged) (index : ℕ) (moment : Moment) (answer : BudgetAnswer) :
    Charges state
      { run := strategy.step request state.run (.advance index moment)
        looks := state.looks ++
          (strategy.lookOf request state.run answer (.advance index moment)).toList } := by
  cases isCall : state.run.calls[index]? with
  | none =>
    simp only [step, lookOf, isCall, Option.bind_none, Option.map_none, Option.toList_none,
      List.append_nil]
    exact .keeps rfl rfl (fun held => held) (fun held _ => held)
  | some call =>
    simp only [step, lookOf, isCall, Option.bind_some]
    cases phase : call.phase with
    | filtering remaining =>
      have unpicked : call.selection? = none := by rw [Call.selection?, phase]
      cases remaining with
      | nil =>
        simp only [Call.candidate?, advanceCall, phase, List.head?_nil, Option.map_none,
          Option.toList_none, List.append_nil]
        apply charges_of_set isCall
        · intro selection held
          rw [advanceCall.leave, selection?_leaveGroup] at held
          cases held
        · intro selection held
          rw [unpicked] at held
          cases held
      | cons upstreamId remaining =>
        simp only [Call.candidate?, advanceCall, phase, List.head?_cons, Option.map_some,
          Option.toList_some, look_eq]
        refine .looks _ moment.sources rfl rfl fresh_of_marks ?_ ?_ ?_
        · rw [picked_eq_selection? isCall, unpicked]
        · rw [StrategyRun.picked_set isCall, selection?_of_phase]
        · intro given
          by_contra unasked
          simp [unasked] at given
    | filtered selection =>
      have isPicked : call.selection? = some selection := by rw [Call.selection?, phase]
      simp only [Call.candidate?, advanceCall, phase, Option.map_none, Option.toList_none,
        List.append_nil]
      split_ifs with unnamed
      · apply charges_of_set isCall
        · intro other held
          rw [advanceCall.leave, selection?_leaveGroup] at held
          cases held
        · intro other held named
          rw [isPicked] at held
          cases held
          exact absurd unnamed named
      · apply charges_of_set isCall
        · intro other held
          exact isPicked.trans held
        · intro other held _
          exact isPicked.symm.trans held
    | selected selection | failed err =>
      simp only [Call.candidate?, advanceCall, phase, Option.map_none, Option.toList_none,
        List.append_nil]
      exact charges_of_set isCall call _ (fun held => held) (fun held _ => held)

variable (strategy request) in
theorem charges_chargedStep (state : Charged) (charged : ChargedEvent) :
    Charges state (strategy.chargedStep request state charged) := by
  obtain ⟨event, answer⟩ := charged
  cases event with
  | advance index moment =>
    exact strategy.charges_advance request state index
      { moment with budgetAllows := answer.allowed } answer
  | selectUpstream moment =>
    have picked (call : ℕ) :
        (strategy.selectUpstream moment state.run).picked call = state.run.picked call :=
      picked_selectUpstream moment state.run call
    refine .keeps (List.append_nil _) (selectedUpstreams_selectUpstream moment state.run) ?_ ?_
    · intro call selection held
      exact (picked call).symm.trans held
    · intro call selection held _
      exact (picked call).trans held

/-- The looks account for the marks and for what the calls hold. -/
structure Accounts (state : Charged) : Prop where
  marked : ∀ {id}, id ∈ state.run.selectedUpstreams ↔
    ∃ look ∈ state.looks, look.verdict.marks = true ∧ look.upstreamId = id
  once : (state.looks.filter (·.verdict.marks)).Pairwise (·.upstreamId ≠ ·.upstreamId)
  held : ∀ {call selection}, state.run.picked call = some selection →
    ∃ look ∈ state.looks, look.call = call ∧ look.verdict = .free ∧
      look.upstreamId = selection.upstreamId
  stays : ∀ {look}, look ∈ state.looks → look.verdict = .free → look.upstreamId ≠ "" →
    ∃ sources, state.run.picked look.call = some ⟨look.upstreamId, sources⟩
  asked : ∀ {look}, look ∈ state.looks → 0 < look.tokens → look.verdict.asksBudget = true

theorem Accounts.initial : Accounts {} where
  marked := by simp
  once := List.Pairwise.nil
  held isHeld := by cases isHeld
  stays member := by cases member
  asked member := by cases member

theorem Accounts.charges {next : Charged} (accounts : Accounts state) (charges : Charges state next) :
    Accounts next := by
  cases charges with
  | keeps looks marked held stays =>
    constructor
    · rw [marked, looks]
      exact accounts.marked
    · rw [looks]
      exact accounts.once
    · intro call selection isHeld
      rw [looks]
      exact accounts.held (held isHeld)
    · intro look member free named
      obtain ⟨sources, picked⟩ := accounts.stays (looks ▸ member) free named
      exact ⟨sources, stays picked named⟩
    · rw [looks]
      exact accounts.asked
  | looks look sources looks marked fresh free picked asked =>
    constructor
    · intro id
      rw [marked, looks, Verdict.mem_mark_iff, accounts.marked]
      simp
    · rw [looks, List.filter_append, List.pairwise_append]
      refine ⟨accounts.once, List.Pairwise.filter _ (List.pairwise_singleton _ _), ?_⟩
      intro old before new now same
      obtain ⟨member, marks⟩ := List.mem_filter.mp before
      obtain ⟨isLook, marksNow⟩ := List.mem_filter.mp now
      rw [List.mem_singleton.mp isLook] at marksNow same
      exact fresh marksNow (accounts.marked.mpr ⟨old, member, marks, same⟩)
    · intro call selection isHeld
      rw [picked] at isHeld
      rw [looks]
      by_cases here : call = look.call
      · rw [here, Function.update_self] at isHeld
        split_ifs at isHeld with isFree
        cases isHeld
        exact ⟨look, by simp, here.symm, Verdict.isFree_iff.mp isFree, rfl⟩
      · rw [Function.update_of_ne here] at isHeld
        obtain ⟨old, member, rest⟩ := accounts.held isHeld
        exact ⟨old, List.mem_append_left _ member, rest⟩
    · intro other member isFree named
      rw [looks] at member
      rw [picked]
      rcases List.mem_append.mp member with old | new
      · obtain ⟨before, isHeld⟩ := accounts.stays old isFree named
        -- a call that holds something looks no further
        have elsewhere : other.call ≠ look.call := by
          intro here
          rw [here, free] at isHeld
          cases isHeld
        exact ⟨before, by rwa [Function.update_of_ne elsewhere]⟩
      · rw [List.mem_singleton.mp new] at isFree ⊢
        exact ⟨sources, by simp [isFree, Verdict.isFree]⟩
    · intro other member given
      rw [looks] at member
      rcases List.mem_append.mp member with old | new
      · exact accounts.asked old given
      · rw [List.mem_singleton.mp new] at given ⊢
        exact asked given

variable (events : List ChargedEvent)

variable (strategy request) in
theorem accounts_run : Accounts (run (strategy.chargedStep request) {} events) :=
  run_induction (fun state event accounts =>
    accounts.charges (strategy.charges_chargedStep request state event)) .initial events

def Named (run : StrategyRun) : Prop :=
  ∀ call ∈ run.calls, ∀ selection, call.phase = .selected selection → selection.upstreamId ≠ ""

theorem phase_ne_selected (unpicked : call.selection? = none) (selection : Selection) :
    call.phase ≠ .selected selection := by
  intro phase
  rw [Call.selection?, phase] at unpicked
  cases unpicked

theorem named_of_advanceCall {moment : Moment} {run : StrategyRun}
    (named : ∀ selection, call.phase = .selected selection → selection.upstreamId ≠ "")
    {selection : Selection}
    (returned : (strategy.advanceCall request moment run call).2.2.phase = .selected selection) :
    selection.upstreamId ≠ "" := by
  have left := phase_ne_selected (strategy.selection?_leaveGroup moment call) selection
  unfold advanceCall at returned
  split at returned
  · exact absurd returned left
  · rw [look_eq] at returned
    dsimp only [Verdict.phase] at returned
    split at returned
    · cases returned
    · cases returned
  · split_ifs at returned with unnamed
    · exact absurd returned left
    · cases returned
      exact unnamed
  · exact named selection returned
  · exact named selection returned

theorem Named.step {run : StrategyRun} (named : Named run) (event : StrategyEvent) :
    Named (strategy.step request run event) := by
  refine forall_calls_step named ?_ ?_ event
  · intro moment
    obtain ⟨call, calls, unpicked⟩ := strategy.exists_new_call moment run
    exact ⟨call, calls, fun selection returned =>
      absurd returned (phase_ne_selected unpicked selection)⟩
  · exact fun moment call before selection returned => named_of_advanceCall before returned

variable (strategy request) in
theorem named_run : Named (run (strategy.chargedStep request) {} events).run := by
  let named (state : Charged) : Prop := Named state.run
  have initial : named {} := by
    intro call member
    cases member
  have preserved (state : Charged) (charged : ChargedEvent) (before : named state) :
      named (strategy.chargedStep request state charged) := before.step charged.toEvent
  exact run_induction preserved initial events

theorem Accounts.eq_of_marks (accounts : Accounts state) {other : Look}
    (member : look ∈ state.looks) (marks : look.verdict.marks = true)
    (isOther : other ∈ state.looks) (marksToo : other.verdict.marks = true)
    (same : look.upstreamId = other.upstreamId) : look = other := by
  have once : ((state.looks.filter (·.verdict.marks)).map (·.upstreamId)).Nodup :=
    List.pairwise_map.mpr accounts.once
  exact List.inj_on_of_nodup_map once (List.mem_filter.mpr ⟨member, marks⟩)
    (List.mem_filter.mpr ⟨isOther, marksToo⟩) same

theorem Accounts.exists_free (accounts : Accounts state) (returned : id ∈ state.run.returnedIds) :
    ∃ look ∈ state.looks, look.verdict = .free ∧ look.upstreamId = id := by
  obtain ⟨call, selection, isReturned, rfl⟩ := StrategyRun.mem_returnedIds.mp returned
  obtain ⟨look, member, -, free, same⟩ :=
    accounts.held (StrategyRun.picked_of_returned isReturned)
  exact ⟨look, member, free, same⟩

theorem Accounts.returned_of_free (accounts : Accounts state)
    (ended : ∀ call ∈ state.run.calls, call.isEnded = true) (member : look ∈ state.looks)
    (free : look.verdict = .free) (named : look.upstreamId ≠ "") :
    look.upstreamId ∈ state.run.returnedIds := by
  obtain ⟨sources, picked⟩ := accounts.stays member free named
  obtain ⟨call, isCall, selection⟩ := Option.bind_eq_some_iff.mp picked
  have hasEnded := ended call (List.mem_of_getElem? isCall)
  refine StrategyRun.mem_returnedIds.mpr
    ⟨look.call, ⟨look.upstreamId, sources⟩, StrategyRun.returned_eq_some.mpr ⟨call, isCall, ?_⟩, rfl⟩
  unfold Call.selection? at selection
  unfold Call.isEnded at hasEnded
  split at selection
  · rename_i phase
    rw [phase] at hasEnded
    cases hasEnded
  · rename_i phase
    rw [phase, Option.some.inj selection]
  · cases selection
  · cases selection

theorem free_of_marks (wasteless : look.wastes = false) (marks : look.verdict.marks = true) :
    look.verdict = .free := by
  cases found : look.verdict with
  | free => rfl
  | throttled => simp [Look.wastes, found] at wasteless
  | absent | taken | rejected matched | overBudget => simp [found, Verdict.marks] at marks

theorem free_of_asksBudget (wasteless : look.wastes = false) (given : 0 < look.tokens)
    (asked : look.verdict.asksBudget = true) : look.verdict = .free := by
  cases found : look.verdict with
  | free => rfl
  | throttled => simp [Look.wastes, found] at wasteless
  | overBudget => simp [Look.wastes, found, given.ne'] at wasteless
  | absent | taken | rejected matched => simp [found, Verdict.asksBudget] at asked

/-- In a run whose calls have all returned, whatever the calls read and however they
interleave, upstreams are marked and tokens taken only for requests that are sent exactly
if no look wastes what it spends and the request comes to everything returned. -/
theorem spent_only_if_sent_iff (strategy : UpstreamStrategy) (request : RequestHolder)
    (events : List ChargedEvent) (dispatch : DispatchPolicy) (cancelled : ℕ → Option String)
    (reply : String → Reply)
    (ended : ∀ call ∈ (run (strategy.chargedStep request) {} events).run.calls,
      call.isEnded = true) :
    let state := run (strategy.chargedStep request) {} events
    let sent := sentTo dispatch cancelled reply state.run.returnedIds
    ((∀ id ∈ state.run.selectedUpstreams, id ∈ sent) ∧
        ∀ look ∈ state.looks, 0 < look.tokens → look.verdict = .free ∧ look.upstreamId ∈ sent) ↔
      (∀ look ∈ state.looks, look.wastes = false) ∧
        ∀ id ∈ state.run.returnedIds,
          Comes dispatch cancelled reply state.run.returnedIds id := by
  intro state sent
  have accounts : Accounts state := strategy.accounts_run request events
  have named : Named state.run := strategy.named_run request events
  constructor
  · rintro ⟨marked, given⟩
    have sends {look : Look} (member : look ∈ state.looks) (marks : look.verdict.marks = true) :
        look.upstreamId ∈ sent := marked _ (accounts.marked.mpr ⟨look, member, marks, rfl⟩)
    constructor
    · intro look member
      unfold Look.wastes
      split
      · -- only the look that marks an upstream can pick it
        rename_i throttled
        have marks : look.verdict.marks = true := by rw [throttled]; rfl
        obtain ⟨other, isOther, free, same⟩ :=
          accounts.exists_free ((mem_sentTo_iff.mp (sends member marks)).1)
        have marksToo : other.verdict.marks = true := by rw [free]; rfl
        rw [accounts.eq_of_marks isOther marksToo member marks same, throttled] at free
        cases free
      · rename_i refused
        refine decide_eq_false fun taken => ?_
        rw [(given look member taken).1] at refused
        cases refused
      · rename_i free
        have returned := (mem_sentTo_iff.mp (sends member (by rw [free]; rfl))).1
        obtain ⟨index, selection, isReturned, same⟩ := StrategyRun.mem_returnedIds.mp returned
        obtain ⟨call, isCall, phase⟩ := StrategyRun.returned_eq_some.mp isReturned
        rw [← same]
        exact beq_false_of_ne (named call (List.mem_of_getElem? isCall) selection phase)
      all_goals rfl
    · intro id returned
      obtain ⟨look, member, free, rfl⟩ := accounts.exists_free returned
      exact (mem_sentTo_iff.mp (sends member (by rw [free]; rfl))).2
  · rintro ⟨wasteless, all⟩
    have sends {look : Look} (member : look ∈ state.looks) (free : look.verdict = .free) :
        look.upstreamId ∈ sent := by
      have isNamed := wasteless look member
      rw [Look.wastes, free] at isNamed
      have returned := accounts.returned_of_free ended member free (ne_of_beq_false isNamed)
      exact mem_sentTo_iff.mpr ⟨returned, all _ returned⟩
    constructor
    · intro id marked
      obtain ⟨look, member, marks, rfl⟩ := accounts.marked.mp marked
      exact sends member (free_of_marks (wasteless look member) marks)
    · intro look member given
      have free := free_of_asksBudget (wasteless look member) given (accounts.asked member given)
      exact ⟨free, sends member free⟩

end UpstreamStrategy

namespace Limited

def request : RequestHolder where
  method := "eth_call"

def moment (autoTuneAllows : Bool) : Moment where
  sources := ⟨fun _ => none, fun id =>
    if ["a", "b"].contains id then
      some (defaultUpstreamState ⟨AList.singleton "eth_call" { name := "eth_call" }⟩ ∅ "01"
        (some 0) (some 0))
    else none⟩
  autoTuneAllows := autoTuneAllows

def select : ChargedEvent := ⟨.selectUpstream (moment true), .memory []⟩

/-- A step of a call while the budget has a token. -/
def advance (call : ℕ) (autoTuneAllows : Bool) : ChargedEvent :=
  ⟨.advance call (moment autoTuneAllows), .memory [true]⟩

/-- The auto-tuned limiter refuses the first call and would allow the second. -/
def retried : Charged :=
  run (UpstreamStrategy.chargedStep (.rating ["a"] {}) request) {}
    [select, advance 0 false, advance 0 true, select, advance 1 true, advance 1 true]

/-- Calls until one fails: the first two return an upstream each. -/
def collecting : List ChargedEvent :=
  [select, advance 0 true, advance 0 true,
    select, advance 1 true, advance 1 true, advance 1 true,
    select, advance 2 true, advance 2 true, advance 2 true]

def collected : Charged :=
  run (UpstreamStrategy.chargedStep (.rating ["a", "b"] {}) request) {} collecting

def reply (id : String) : Reply :=
  .response true { upstreamId := id, responseResult := bytes "\"0x1\"" }

end Limited

/-- A fan-out is sent to both upstreams, and spends nothing else. -/
theorem fanout_spends_for_both :
    (∀ id ∈ Limited.collected.run.selectedUpstreams,
        id ∈ sentTo .dispatchBroadcast (fun _ => none) Limited.reply
          Limited.collected.run.returnedIds) ∧
      ∀ look ∈ Limited.collected.looks, 0 < look.tokens → look.verdict = .free ∧
        look.upstreamId ∈ sentTo .dispatchBroadcast (fun _ => none) Limited.reply
          Limited.collected.run.returnedIds := by
  refine (UpstreamStrategy.spent_only_if_sent_iff (.rating ["a", "b"] {}) Limited.request
    Limited.collecting .dispatchBroadcast (fun _ => none) Limited.reply ?_).mpr ⟨?_, ?_⟩
  · exact List.all_eq_true.mp rfl
  · intro look member
    have all : Limited.collected.looks.all (!·.wastes) = true := rfl
    simpa using List.all_eq_true.mp all look member
  · intro id returned
    exact ⟨rfl, fun same => by cases same⟩

/-- An upstream that the auto-tuned limiter refused stays marked and has lost its token; so
has one that a not-null walk has collected and did not need. -/
theorem tokens_lost_without_sending :
    (Limited.retried.looks.map (·.tokens) = [1, 0] ∧
        Limited.retried.run.selectedUpstreams.contains "a" = true ∧
        sentTo .dispatchDefault (fun _ => none) Limited.reply
          Limited.retried.run.returnedIds = []) ∧
      (Limited.collected.looks.map (fun look => (look.upstreamId, look.tokens)) =
          [("a", 1), ("a", 0), ("b", 1), ("a", 0), ("b", 0)] ∧
        Limited.collected.run.selectedUpstreams.contains "b" = true ∧
        sentTo .dispatchNotNull (fun _ => none) Limited.reply
          Limited.collected.run.returnedIds = ["a"]) := by
  refine ⟨⟨rfl, rfl, rfl⟩, rfl, rfl, ?_⟩
  decide

end Nodecore.Flow
