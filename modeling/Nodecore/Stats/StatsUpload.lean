/-
# Uploading statistics

The counts of a snapshot are uploaded in one batch for each API key, all at the
same time, and the first error is returned.  The flush then stores the whole
snapshot to be tried again, so what had got through is uploaded once more unless
all the counts belong to one API key.
-/

import Nodecore.Stats.Ledger

namespace Nodecore.Stats

open Lib

inductive RequestKind
  | unknownReqKind | internalUnary | internalSubscription | local | cached | unary | subscription
  deriving DecidableEq

inductive ResponseKind
  | unknownRespKind | ok | cancelled | error | retryableError | routingError
  deriving DecidableEq

structure StatsKey where
  upstreamId : String
  reqKind : RequestKind
  respKind : ResponseKind
  apiKey : String
  chain : ℤ
  method : String
  timestamp : ℤ
  deriving DecidableEq

structure DrpcOwnedKey where
  ownerID : String
  apiToken : String
  apiKey : String
  deriving DecidableEq

structure StatsEntry where
  key : StatsKey
  requestAmount : ℕ
  deriving DecidableEq

structure StatsUploadBatch where
  ownerID : String
  apiToken : String
  entries : List StatsEntry
  deriving DecidableEq

/-- What a call of `ProcessStatsData` meets: the owner that is known for a key when its turn
comes, how the upload of a batch ends, the order in which the counts are visited and that in
which the uploads end. -/
structure UploadCall where
  owner : StatsKey → Option DrpcOwnedKey
  uploadStats : String → StatsUploadBatch → Option ProcessError
  visit : RangeOrder (Entry StatsKey ℕ)
  finish : RangeOrder (Entry String StatsUploadBatch)

/-- All the counts that are uploaded at all belong to one API key. -/
def OneApiKey (owner : StatsKey → Option DrpcOwnedKey) (stats : GoMap StatsKey ℕ) : Prop :=
  ∀ first ∈ stats.keys, ∀ second ∈ stats.keys, first.apiKey ≠ "" → (owner first).isSome →
    second.apiKey ≠ "" → (owner second).isSome → first.apiKey = second.apiKey

instance (owner : StatsKey → Option DrpcOwnedKey) (stats : GoMap StatsKey ℕ) :
    Decidable (OneApiKey owner stats) :=
  inferInstanceAs (Decidable (∀ first ∈ stats.keys, ∀ second ∈ stats.keys, _))

namespace UploadCall

variable (call : UploadCall)

/-- Counts without an API key or without a known owner are passed by. -/
def addEntry (itemsPerKey : GoMap String StatsUploadBatch) (entry : Entry StatsKey ℕ) :
    GoMap String StatsUploadBatch :=
  if entry.1.apiKey = "" then itemsPerKey
  else
    match call.owner entry.1 with
    | none => itemsPerKey
    | some ownerData =>
      let batch := (itemsPerKey.lookup entry.1.apiKey).getD
        ⟨ownerData.ownerID, ownerData.apiToken, []⟩
      itemsPerKey.insert entry.1.apiKey
        { batch with entries := batch.entries ++ [⟨entry.1, entry.2⟩] }

/-- The batches, one for each API key. -/
def itemsPerKey (stats : GoMap StatsKey ℕ) : GoMap String StatsUploadBatch :=
  (call.visit.visit stats.entries).foldl call.addEntry ∅

/-- A count got through if the batch it is in did. -/
def uploaded (stats : GoMap StatsKey ℕ) (key : StatsKey) : Bool :=
  match (call.itemsPerKey stats).lookup key.apiKey with
  | some batch =>
    decide (key ∈ batch.entries.map (·.key)) && (call.uploadStats key.apiKey batch).isNone
  | none => false

def processStatsData (stats : GoMap StatsKey ℕ) : Outcome StatsKey where
  sent := call.uploaded stats
  error :=
    let batches := (call.itemsPerKey stats).entries
    if batches = [] then some .failed
    else (call.finish.visit batches).findSome? fun item => call.uploadStats item.1 item.2

/-- A count is put into a batch. -/
def Uploadable (key : StatsKey) : Prop := key.apiKey ≠ "" ∧ (call.owner key).isSome

instance (key : StatsKey) : Decidable (call.Uploadable key) :=
  inferInstanceAs (Decidable (_ ∧ _))

def contents (items : GoMap String StatsUploadBatch) (apiKey : String) : List StatsEntry :=
  ((items.lookup apiKey).map (·.entries)).getD []

variable {call} {entry : Entry StatsKey ℕ}

theorem addEntry_of_not_uploadable {items : GoMap String StatsUploadBatch}
    (passed : ¬ call.Uploadable entry.1) : call.addEntry items entry = items := by
  unfold addEntry
  split
  · rfl
  · rename_i named
    cases owned : call.owner entry.1 with
    | none => rfl
    | some ownerData => exact absurd ⟨named, by rw [owned]; rfl⟩ passed

variable (items : GoMap String StatsUploadBatch)

theorem addEntry_of_uploadable (taken : call.Uploadable entry.1) :
    ∃ batch, call.addEntry items entry = items.insert entry.1.apiKey batch ∧
      batch.entries = contents items entry.1.apiKey ++ [⟨entry.1, entry.2⟩] := by
  obtain ⟨ownerData, owned⟩ := Option.isSome_iff_exists.mp taken.2
  refine ⟨_, by rw [addEntry, if_neg taken.1, owned], ?_⟩
  rw [contents]
  cases items.lookup entry.1.apiKey <;> rfl

theorem contents_addEntry (entry : Entry StatsKey ℕ) (apiKey : String) :
    contents (call.addEntry items entry) apiKey = contents items apiKey ++
      if call.Uploadable entry.1 ∧ entry.1.apiKey = apiKey then [⟨entry.1, entry.2⟩] else [] := by
  by_cases taken : call.Uploadable entry.1
  · obtain ⟨batch, added, lists⟩ := addEntry_of_uploadable items taken
    rw [added]
    by_cases same : entry.1.apiKey = apiKey
    · subst same
      rw [if_pos ⟨taken, rfl⟩, ← lists, contents, AList.lookup_insert]
      rfl
    · rw [if_neg (fun both => same both.2), contents, AList.lookup_insert_ne (Ne.symm same),
        List.append_nil, contents]
  · rw [addEntry_of_not_uploadable taken, if_neg (fun both => taken both.1), List.append_nil]

theorem mem_addEntry (entry : Entry StatsKey ℕ) (apiKey : String) :
    apiKey ∈ call.addEntry items entry ↔
      apiKey ∈ items ∨ call.Uploadable entry.1 ∧ entry.1.apiKey = apiKey := by
  by_cases taken : call.Uploadable entry.1
  · obtain ⟨batch, added, -⟩ := addEntry_of_uploadable items taken
    rw [added, AList.mem_insert]
    constructor
    · rintro (rfl | there)
      · exact .inr ⟨taken, rfl⟩
      · exact .inl there
    · rintro (there | ⟨-, rfl⟩)
      · exact .inr there
      · exact .inl rfl
  · rw [addEntry_of_not_uploadable taken]
    exact ⟨.inl, fun either => either.resolve_right fun both => taken both.1⟩

variable (stats : GoMap StatsKey ℕ)

/-- The batch of an API key has just the counts of that key, in the order of the visit. -/
theorem contents_itemsPerKey (apiKey : String) :
    contents (call.itemsPerKey stats) apiKey =
      ((call.visit.visit stats.entries).filter fun entry =>
        call.Uploadable entry.1 ∧ entry.1.apiKey = apiKey).map fun entry => ⟨entry.1, entry.2⟩ := by
  have loop : ∀ (entries : List (Entry StatsKey ℕ)) (items : GoMap String StatsUploadBatch),
      contents (entries.foldl call.addEntry items) apiKey = contents items apiKey ++
        (entries.filter fun entry => call.Uploadable entry.1 ∧ entry.1.apiKey = apiKey).map
          fun entry => ⟨entry.1, entry.2⟩ := by
    intro entries
    induction entries with
    | nil => intro items; simp
    | cons entry entries ih =>
      intro items
      rw [List.foldl_cons, ih, contents_addEntry, List.append_assoc]
      by_cases taken : call.Uploadable entry.1 ∧ entry.1.apiKey = apiKey
      · rw [if_pos taken, List.filter_cons_of_pos (by simpa using taken)]
        rfl
      · rw [if_neg taken, List.filter_cons_of_neg (by simpa using taken)]
        rfl
  exact loop _ ∅

variable (call) in
theorem mem_itemsPerKey (apiKey : String) :
    apiKey ∈ call.itemsPerKey stats ↔
      ∃ key ∈ stats, call.Uploadable key ∧ key.apiKey = apiKey := by
  have loop : ∀ (entries : List (Entry StatsKey ℕ)) (items : GoMap String StatsUploadBatch),
      apiKey ∈ entries.foldl call.addEntry items ↔
        apiKey ∈ items ∨ ∃ entry ∈ entries, call.Uploadable entry.1 ∧ entry.1.apiKey = apiKey := by
    intro entries
    induction entries with
    | nil => intro items; simp
    | cons entry entries ih =>
      intro items
      rw [List.foldl_cons, ih, mem_addEntry, or_assoc, List.exists_mem_cons_iff]
  rw [itemsPerKey, loop]
  simp only [AList.notMem_empty, false_or, RangeOrder.mem_visit]
  constructor
  · rintro ⟨entry, there, taken⟩
    exact ⟨entry.1, AList.mem_keys.mpr (List.mem_map_of_mem (f := Sigma.fst) there), taken⟩
  · rintro ⟨key, there, taken⟩
    obtain ⟨count, found⟩ := Option.isSome_iff_exists.mp (AList.lookup_isSome.mpr there)
    exact ⟨⟨key, count⟩, AList.mem_lookup_iff.mp found, taken⟩

/-- What got through: the counts that are put into a batch, if its upload succeeds. -/
theorem uploaded_iff (key : StatsKey) :
    call.uploaded stats key = true ↔ key ∈ stats ∧ call.Uploadable key ∧
      ∃ batch, (call.itemsPerKey stats).lookup key.apiKey = some batch ∧
        call.uploadStats key.apiKey batch = none := by
  have listed : key ∈ (contents (call.itemsPerKey stats) key.apiKey).map (·.key) ↔
      key ∈ stats ∧ call.Uploadable key := by
    rw [contents_itemsPerKey]
    simp only [List.map_map, List.mem_map, List.mem_filter, RangeOrder.mem_visit,
      Function.comp_apply, decide_eq_true_eq]
    constructor
    · rintro ⟨entry, ⟨there, taken, -⟩, rfl⟩
      exact ⟨AList.mem_keys.mpr (List.mem_map_of_mem (f := Sigma.fst) there), taken⟩
    · rintro ⟨there, taken⟩
      obtain ⟨count, found⟩ := Option.isSome_iff_exists.mp (AList.lookup_isSome.mpr there)
      exact ⟨⟨key, count⟩, ⟨AList.mem_lookup_iff.mp found, taken, rfl⟩, rfl⟩
  unfold uploaded
  cases found : (call.itemsPerKey stats).lookup key.apiKey with
  | none => simp
  | some batch =>
    rw [contents, found] at listed
    simp only [Option.map_some, Option.getD_some] at listed
    simp [listed, and_assoc]

theorem exists_failure_of_error {stats : GoMap StatsKey ℕ} {error : ProcessError}
    (returned : (call.processStatsData stats).error = some error) :
    call.itemsPerKey stats = ∅ ∨ ∃ apiKey batch,
      (call.itemsPerKey stats).lookup apiKey = some batch ∧
        call.uploadStats apiKey batch = some error := by
  simp only [processStatsData] at returned
  split at returned
  · rename_i empty
    exact .inl (AList.ext empty)
  · obtain ⟨item, there, failed⟩ := List.exists_of_findSome?_eq_some returned
    rw [RangeOrder.mem_visit] at there
    exact .inr ⟨item.1, item.2, AList.mem_lookup_iff.mpr there, failed⟩

theorem uploadStats_of_error_eq_none {stats : GoMap StatsKey ℕ}
    (returned : (call.processStatsData stats).error = none) {apiKey : String}
    {batch : StatsUploadBatch} (found : (call.itemsPerKey stats).lookup apiKey = some batch) :
    call.uploadStats apiKey batch = none := by
  simp only [processStatsData] at returned
  split at returned
  · cases returned
  · exact List.findSome?_eq_none_iff.mp returned ⟨apiKey, batch⟩
      ((RangeOrder.mem_visit ..).mpr (AList.mem_lookup_iff.mp found))

/-- If all the counts to be uploaded belong to one API key, then nothing got through when
there is an error. -/
theorem not_uploaded_of_error {stats : GoMap StatsKey ℕ} (single : OneApiKey call.owner stats)
    (returned : (call.processStatsData stats).error ≠ none) (key : StatsKey) :
    call.uploaded stats key = false := by
  obtain ⟨error, isError⟩ := Option.ne_none_iff_exists'.mp returned
  rw [← Bool.not_eq_true, uploaded_iff]
  rintro ⟨there, taken, batch, found, through⟩
  rcases exists_failure_of_error isError with empty | ⟨apiKey, failing, isFailing, failed⟩
  · rw [empty, AList.lookup_empty] at found
    cases found
  · have held : apiKey ∈ call.itemsPerKey stats := by
      rw [← AList.lookup_isSome, isFailing]
      rfl
    obtain ⟨other, otherThere, otherTaken, rfl⟩ := (call.mem_itemsPerKey stats apiKey).mp held
    rw [single other otherThere key there otherTaken.1 otherTaken.2 taken.1 taken.2]
      at isFailing failed
    cases found.symm.trans isFailing
    cases through.symm.trans failed

variable {stats} {owner : StatsKey → Option DrpcOwnedKey}

theorem exists_batch {key : StatsKey} (there : key ∈ stats) (taken : call.Uploadable key) :
    ∃ batch, (call.itemsPerKey stats).lookup key.apiKey = some batch := by
  have held := (call.mem_itemsPerKey stats key.apiKey).mpr ⟨key, there, taken, rfl⟩
  exact Option.isSome_iff_exists.mp (AList.lookup_isSome.mpr held)

/-- The upload for one API key succeeds and all others fail. -/
def succeedingFor (owner : StatsKey → Option DrpcOwnedKey) (apiKey : String) : UploadCall :=
  ⟨owner, fun other _ => if other = apiKey then none else some .failed, .stored _, .stored _⟩

theorem uploaded_succeedingFor {key : StatsKey} (there : key ∈ stats)
    (taken : (succeedingFor owner key.apiKey).Uploadable key) :
    (succeedingFor owner key.apiKey).uploaded stats key = true := by
  obtain ⟨batch, found⟩ := exists_batch there taken
  exact (uploaded_iff stats key).mpr ⟨there, taken, batch, found, if_pos rfl⟩

theorem error_succeedingFor {key : StatsKey} {apiKey : String} (there : key ∈ stats)
    (taken : (succeedingFor owner apiKey).Uploadable key) (differ : key.apiKey ≠ apiKey) :
    ((succeedingFor owner apiKey).processStatsData stats).error = some .failed := by
  obtain ⟨batch, found⟩ := exists_batch there taken
  cases returned : ((succeedingFor owner apiKey).processStatsData stats).error with
  | none =>
    have through := uploadStats_of_error_eq_none returned found
    simp only [succeedingFor, if_neg differ] at through
    cases through
  | some error =>
    rcases exists_failure_of_error returned with empty | ⟨other, _, _, failure⟩
    · rw [empty, AList.lookup_empty] at found
      cases found
    · simp only [succeedingFor] at failure
      split at failure
      · cases failure
      · exact failure.symm

end UploadCall

/-- What the flush stores for a later try. -/
def storeUnprocessed {κ : Type*} (outcome : Outcome κ) (order : RangeOrder (Entry κ ℕ))
    (stats : GoMap κ ℕ) : Batch κ :=
  if outcome.error = some .failed then order.visit stats.entries else []

/-- After an error nothing was uploaded or only what was not uploaded is stored. -/
def UploadedOnce (outcome : Outcome StatsKey) (order : RangeOrder (Entry StatsKey ℕ))
    (stats : GoMap StatsKey ℕ) : Prop :=
  outcome.error ≠ none → (∀ key ∈ stats, outcome.sent key = false) ∨
    ∀ entry ∈ storeUnprocessed outcome order stats, outcome.sent entry.1 = false

/-- Whatever uploads fail, nothing of a snapshot is uploaded again exactly if all its counts
that are uploaded at all belong to one API key. -/
theorem uploadedOnce_iff_oneApiKey (owner : StatsKey → Option DrpcOwnedKey)
    (stats : GoMap StatsKey ℕ) :
    (∀ uploadStats visit finish order,
        UploadedOnce (UploadCall.processStatsData ⟨owner, uploadStats, visit, finish⟩ stats) order
          stats) ↔ OneApiKey owner stats := by
  constructor
  · intro once first firstThere second secondThere firstNamed firstOwned secondNamed secondOwned
    by_contra differ
    have uploaded := UploadCall.uploaded_succeedingFor firstThere ⟨firstNamed, firstOwned⟩
    have failed := UploadCall.error_succeedingFor secondThere ⟨secondNamed, secondOwned⟩
      (Ne.symm differ)
    let outcome := (UploadCall.succeedingFor owner first.apiKey).processStatsData stats
    have once : UploadedOnce outcome (.stored _) stats := once _ _ _ _
    have stored : storeUnprocessed outcome (.stored _) stats = stats.entries := if_pos failed
    rcases once (failed.trans_ne (Option.some_ne_none _)) with unsent | unsent
    · exact Bool.false_ne_true ((unsent first firstThere).symm.trans uploaded)
    · obtain ⟨count, found⟩ := Option.isSome_iff_exists.mp (AList.lookup_isSome.mpr firstThere)
      rw [stored] at unsent
      exact Bool.false_ne_true
        ((unsent ⟨first, count⟩ (AList.mem_lookup_iff.mp found)).symm.trans uploaded)
  · intro single uploadStats visit finish order returned
    exact .inl fun key _ => UploadCall.not_uploaded_of_error single returned key

section Runs

variable {ι : Type*} [DecidableEq ι]

/-- Events with what an upload meets. -/
inductive UploadEvent (ι : Type*)
  | addRequestResult (writer : ι) (key : StatsKey)
  | write (writer : ι)
  | flush (call : UploadCall) (order : RangeOrder (Entry StatsKey ℕ))
  | flushUnprocessed (listing : Listing StatsKey) (order : RangeOrder (Entry StatsKey ℕ))
      (call : UploadCall)

/-- The counts that an event uploads. -/
def UploadEvent.uploads (system : StatsSystem ι StatsKey) : UploadEvent ι → GoMap StatsKey ℕ
  | addRequestResult _ _ => ∅
  | write _ => ∅
  | flush _ _ =>
    match system.flusher with
    | .ready h => (system.holders h).aggregated
    | _ => ∅
  | flushUnprocessed listing order _ => mergeBatches order (listing.pick system.outbox.entries)

def UploadEvent.toEvent (system : StatsSystem ι StatsKey) (event : UploadEvent ι) :
    StatsEvent ι StatsKey :=
  match event with
  | addRequestResult writer key => .addRequestResult writer key
  | write writer => .write writer
  | flush call order => .flush (call.processStatsData (event.uploads system)) order
  | flushUnprocessed listing order call =>
    .flushUnprocessed listing order (call.processStatsData (event.uploads system))

def stepUpload (storage : Storage StatsKey) (system : StatsSystem ι StatsKey)
    (event : UploadEvent ι) : StatsSystem ι StatsKey :=
  system.step storage (event.toEvent system)

/-- What the event uploads belongs to one API key: the snapshot of a flush, or the batches of
a retry merged into one. -/
def UploadEvent.IsSingle (system : StatsSystem ι StatsKey) (event : UploadEvent ι) : Prop :=
  match event with
  | addRequestResult _ _ => True
  | write _ => True
  | flush call _ => OneApiKey call.owner (event.uploads system)
  | flushUnprocessed _ _ call => OneApiKey call.owner (event.uploads system)

instance (system : StatsSystem ι StatsKey) :
    ∀ event : UploadEvent ι, Decidable (event.IsSingle system)
  | .addRequestResult _ _ => .isTrue trivial
  | .write _ => .isTrue trivial
  | .flush call _ => inferInstanceAs (Decidable (OneApiKey call.owner _))
  | .flushUnprocessed _ _ call => inferInstanceAs (Decidable (OneApiKey call.owner _))

omit [DecidableEq ι] in
theorem repeatedBy_of_isSingle {system : StatsSystem ι StatsKey} {event : UploadEvent ι}
    (single : event.IsSingle system) (key : StatsKey) :
    repeatedBy system key (event.toEvent system) = 0 := by
  cases event with
  | addRequestResult writer added => rfl
  | write writer => rfl
  | flush call order =>
    simp only [UploadEvent.toEvent, repeatedBy]
    split
    · refine if_neg fun failed => ?_
      have unsent := UploadCall.not_uploaded_of_error single
        (failed.1.trans_ne (Option.some_ne_none _)) key
      exact Bool.false_ne_true (unsent.symm.trans failed.2)
    · rfl
  | flushUnprocessed listing order call =>
    refine if_neg fun failed => ?_
    have unsent := UploadCall.not_uploaded_of_error single failed.2.1 key
    exact Bool.false_ne_true (unsent.symm.trans failed.2.2)

/-- No count of a snapshot is uploaded twice, whatever uploads fail, exactly if all of them
belong to one API key; and along every run in which each upload, of a snapshot or of merged
batches, is for one API key, no more counts are delivered than were accepted. -/
theorem uploaded_once_iff [Fintype ι] (storage : Storage StatsKey) :
    (∀ (owner : StatsKey → Option DrpcOwnedKey) (stats : GoMap StatsKey ℕ),
      (∀ uploadStats visit finish order,
        UploadedOnce (UploadCall.processStatsData ⟨owner, uploadStats, visit, finish⟩ stats) order
          stats) ↔ OneApiKey owner stats) ∧
    ∀ events : List (UploadEvent ι),
      EachStep (stepUpload storage) (fun system event => event.IsSingle system)
          (StatsSystem.start ι StatsKey) events →
        AfterEach (stepUpload storage)
          (fun system => ∀ key, system.delivered key ≤ system.accepted key)
          (StatsSystem.start ι StatsKey) events := by
  refine ⟨uploadedOnce_iff_oneApiKey, fun events singles => ?_⟩
  have covered : AfterEach (stepUpload storage)
      (fun system => Sound system ∧ ∀ key, system.accounted key ≤ system.accepted key)
      (StatsSystem.start ι StatsKey) events := by
    refine afterEach_of_eachStep ?_ ⟨sound_start, fun key => le_rfl⟩ singles
    intro system event inv single
    refine ⟨inv.1.step storage _, fun key => ?_⟩
    have step := accounted_step inv.1 storage (event.toEvent system) key
    rw [repeatedBy_of_isSingle single] at step
    have before := inv.2 key
    rw [stepUpload]
    omega
  refine covered.imp fun system inv key => ?_
  have below := inv.2 key
  rw [StatsSystem.accounted] at below
  omega

end Runs

def countOf (apiKey : String) : StatsKey :=
  ⟨"upstream", .unary, .ok, apiKey, 1, "eth_call", 0⟩

def failingFor (apiKeys : List String) : UploadCall where
  owner key := some ⟨"owner", "token", key.apiKey⟩
  uploadStats apiKey _ := if apiKey ∈ apiKeys then some .failed else none
  visit := .stored _
  finish := .stored _

def byLength : Storage StatsKey where
  hashToString batch := toString batch.length
  overwrites := true

def countedFor (apiKey : String) : List (UploadEvent Unit) :=
  .addRequestResult () (countOf apiKey) :: List.replicate 7 (.write ())

/-- Of two API keys' uploads one fails.  The counts of both are stored, and the next try
uploads the other's count a second time. -/
theorem count_uploaded_twice :
    let system := run (stepUpload byLength) (StatsSystem.start Unit StatsKey)
      (countedFor "a" ++ countedFor "b" ++
        List.replicate 4 (.flush (failingFor ["b"]) (.stored _)) ++
        [.flushUnprocessed firstFive (.stored _) (failingFor [])]);
    system.accepted (countOf "a") = 1 ∧ system.delivered (countOf "a") = 2 := by
  decide +kernel

/-- A failed upload for one API key that is tried again. -/
theorem uploaded_once_after_failure :
    let events := countedFor "a" ++ List.replicate 4 (.flush (failingFor ["a"]) (.stored _)) ++
      [.flushUnprocessed firstFive (.stored _) (failingFor [])];
    EachStep (stepUpload byLength) (fun system event => event.IsSingle system)
        (StatsSystem.start Unit StatsKey) events ∧
      AfterEach (stepUpload byLength)
        (fun system => ∀ key, system.delivered key ≤ system.accepted key)
        (StatsSystem.start Unit StatsKey) events := by
  intro events
  have singles : EachStep (stepUpload byLength) (fun system event => event.IsSingle system)
      (StatsSystem.start Unit StatsKey) events := by decide +kernel
  exact ⟨singles, (uploaded_once_iff byLength).2 events singles⟩

end Nodecore.Stats
