/-
# What a key may ask for

A key can be limited to some methods and, for the two methods that read
contracts, to an allow-list of contract addresses.  The address is looked up in
the body that goes to the upstream, at a fixed path, and compared as a text.

The JSON library is a parameter.  Its path lookup reads the first member of a
name; a reader that takes another one when a name is repeated sees other
addresses, so the results here speak about all members of the name.
-/

import Nodecore.Protocol.Request

namespace Nodecore.KeyManagement

open Lib Lib.JsonValue Protocol

/-- The outcome of a lookup: a value, nothing at the path, or another error. -/
inductive SonicNode
  | found (value : JsonValue)
  | notExists
  | failed (error : String)

/-- The JSON library's lookup of a path, and the items it reads of an array. -/
structure Sonic where
  get : JsonValue → List PathStep → SonicNode
  array : JsonValue → Except String (List JsonValue)

/-- It finds a value exactly where the path leads to one, and reads all items. -/
structure Sonic.Documented (sonic : Sonic) : Prop where
  get : ∀ root path value, sonic.get root path = .found value ↔ resolve path root = some value
  array : ∀ items, sonic.array (.array items) = .ok items

def checkMethod (allowedMethods forbiddenMethods : List String) (method : String) :
    Except String Unit :=
  if allowedMethods ≠ [] ∧ method ∉ allowedMethods then
    .error ("method '" ++ method ++ "' is not allowed")
  else if forbiddenMethods ≠ [] ∧ method ∈ forbiddenMethods then
    .error ("method '" ++ method ++ "' is not allowed")
  else .ok ()

def checkTo (contracts : List String) : JsonValue → Except String Unit
  | .string address =>
    if address ∈ contracts then .ok () else .error ("'" ++ address ++ "' address is not allowed")
  | _ => .error "'to' param must be string"

/-- The texts of an array, or the complaint about its first other item. -/
def addressStrings : List JsonValue → Except String (List String)
  | [] => .ok []
  | .string address :: items => (addressStrings items).map (address :: ·)
  | _ :: _ => .error "value in 'address' param must be string"

/-- The addresses of a filter.  A value that is neither an array nor a text, or an array
that cannot be read, leaves the list empty. -/
def filterAddresses (sonic : Sonic) : JsonValue → Except String (List String)
  | .array items => addressStrings ((sonic.array (.array items)).toOption.getD [])
  | .string address => .ok [address]
  | _ => .ok []

def checkAddresses (contracts : List String) : List String → Except String Unit
  | [] => .ok ()
  | address :: addresses =>
    if address ∈ contracts then checkAddresses contracts addresses
    else .error ("'" ++ address ++ "' address is not allowed")

def checkFilter (sonic : Sonic) (contracts : List String) (address : JsonValue) :
    Except String Unit :=
  match filterAddresses sonic address with
  | .error message => .error message
  | .ok addresses => checkAddresses contracts addresses

/-- The lookup both methods share, with the member they require and the check
of its value. -/
def checkMember (sonic : Sonic) (request : RequestHolder) (name : String)
    (check : JsonValue → Except String Unit) : Except String Unit :=
  match request.body with
  | .error message => .error message
  | .ok body =>
    match sonic.get body [.key "params", .index 0, .key name] with
    | .notExists => .error ("'" ++ name ++ "' param is mandatory due to the contracts settings")
    | .failed message => .error message
    | .found value => check value

def checkContracts (sonic : Sonic) (contracts : List String) (request : RequestHolder) :
    Except String Unit :=
  if contracts ≠ [] then
    if request.method = "eth_call" then
      checkMember sonic request "to" (checkTo contracts)
    else if request.method = "eth_getLogs" then
      checkMember sonic request "address" (checkFilter sonic contracts)
    else .ok ()
  else .ok ()

structure AuthMethods where
  allowed : List String := []
  forbidden : List String := []

structure AuthContracts where
  allowed : List String := []

structure KeySettingsConfig where
  methods : Option AuthMethods := none
  authContracts : Option AuthContracts := none

/-- A key of the configuration file, with the settings a request is checked
against after it was parsed. -/
structure LocalKey where
  id : String
  key : String
  keySettingsCfg : Option KeySettingsConfig

/-- A key of the integration API. -/
structure DrpcKey where
  keyId : String
  apiKey : String
  methodsBlacklist : List String
  methodsWhitelist : List String
  contractWhitelist : List String

/-- The check both kinds of keys make with their own lists. -/
def postCheck (sonic : Sonic) (methods : AuthMethods) (contracts : List String)
    (request : RequestHolder) : Except String Unit :=
  match checkMethod methods.allowed methods.forbidden request.method with
  | .error message => .error message
  | .ok () => checkContracts sonic contracts request

def LocalKey.postCheckSetting (sonic : Sonic) (key : LocalKey) (request : RequestHolder) :
    Except String Unit :=
  match key.keySettingsCfg with
  | none => .ok ()
  | some settings =>
    postCheck sonic (settings.methods.getD {}) (settings.authContracts.getD {}).allowed request

def DrpcKey.postCheckSetting (sonic : Sonic) (key : DrpcKey) (request : RequestHolder) :
    Except String Unit :=
  postCheck sonic ⟨key.methodsWhitelist, key.methodsBlacklist⟩ key.contractWhitelist request

inductive Key
  | localKey (key : LocalKey)
  | drpcKey (key : DrpcKey)

namespace Key

def postCheckSetting (sonic : Sonic) : Key → RequestHolder → Except String Unit
  | localKey key => key.postCheckSetting sonic
  | drpcKey key => key.postCheckSetting sonic

def methods : Key → AuthMethods
  | localKey key => (key.keySettingsCfg.bind (·.methods)).getD {}
  | drpcKey key => ⟨key.methodsWhitelist, key.methodsBlacklist⟩

def contracts : Key → List String
  | localKey key => ((key.keySettingsCfg.bind (·.authContracts)).getD {}).allowed
  | drpcKey key => key.contractWhitelist

theorem postCheckSetting_eq (sonic : Sonic) (key : Key) (request : RequestHolder) :
    key.postCheckSetting sonic request = postCheck sonic key.methods key.contracts request := by
  cases key with
  | drpcKey key => rfl
  | localKey key =>
    cases settings : key.keySettingsCfg with
    | some cfg => simp [postCheckSetting, LocalKey.postCheckSetting, methods, contracts, settings]
    | none =>
      simp [postCheckSetting, LocalKey.postCheckSetting, methods, contracts, settings,
        postCheck, checkMethod, checkContracts]

end Key

/-- The first argument of the request: the transaction of a call, the filter of
a log query. -/
def argument (request : RequestHolder) : Option JsonValue :=
  match request.body with
  | .ok body => resolve [.key "params", .index 0] body
  | .error _ => none

def namedAddresses : JsonValue → List String
  | .string address => [address]
  | .array items =>
    items.filterMap fun
      | .string address => some address
      | _ => none
  | _ => []

/-- The value names an address, and names only allowed ones. -/
def NamesAllowed (contracts : List String) (value : JsonValue) : Prop :=
  namedAddresses value ≠ [] ∧ ∀ address ∈ namedAddresses value, address ∈ contracts

/-- A text or an array that is not empty: the encodings of an address or of
some addresses. -/
def IsAddressed : JsonValue → Prop
  | .string _ => True
  | .array items => items ≠ []
  | _ => False

/-- The argument has the member, and whichever of its repetitions is read, it
names allowed addresses only, and at least one. -/
def Restricted (contracts : List String) (name : String) (request : RequestHolder) : Prop :=
  ∃ value, argument request = some value ∧ valuesOf name value ≠ [] ∧
    ∀ member ∈ valuesOf name value, NamesAllowed contracts member

/-- The first member of the name, if there is one, has the shape. -/
def FirstIs (shape : JsonValue → Prop) (name : String) (request : RequestHolder) : Prop :=
  ∀ value first others, argument request = some value → valuesOf name value = first :: others →
    shape first

/-- If the first member of the name passes the check, its repetitions name
allowed addresses as well. -/
def RepeatsAllowed (contracts : List String) (name : String)
    (check : JsonValue → Except String Unit) (request : RequestHolder) : Prop :=
  ∀ value first others, argument request = some value → valuesOf name value = first :: others →
    check first = .ok () → ∀ other ∈ others, NamesAllowed contracts other

variable {sonic : Sonic} {request : RequestHolder} {value : JsonValue}

section Checks

variable {contracts : List String}

theorem checkAddresses_iff (addresses : List String) :
    checkAddresses contracts addresses = .ok () ↔ ∀ address ∈ addresses, address ∈ contracts := by
  induction addresses with
  | nil => simp [checkAddresses]
  | cons address addresses ih =>
    rw [checkAddresses]
    split
    · rename_i allowed
      simp [ih, allowed]
    · rename_i refused
      simp [refused]

theorem namedAddresses_of_addressStrings {items : List JsonValue} {addresses : List String}
    (read : addressStrings items = .ok addresses) :
    namedAddresses (.array items) = addresses ∧ addresses.length = items.length := by
  induction items generalizing addresses with
  | nil =>
    obtain rfl := Except.ok.inj read
    exact ⟨rfl, rfl⟩
  | cons item items ih =>
    cases item with
    | string address =>
      rw [addressStrings] at read
      cases rest : addressStrings items with
      | error message =>
        rw [rest] at read
        cases read
      | ok others =>
        rw [rest] at read
        obtain rfl := Except.ok.inj read
        obtain ⟨named, same⟩ := ih rest
        exact ⟨congrArg (address :: ·) named, by simp [same]⟩
    | _ => cases read

theorem namesAllowed_of_checkTo (passes : checkTo contracts value = .ok ()) :
    NamesAllowed contracts value := by
  cases value with
  | string address =>
    rw [checkTo] at passes
    split at passes
    · rename_i allowed
      exact ⟨List.cons_ne_nil _ _, by simpa [namedAddresses] using allowed⟩
    · cases passes
  | _ => cases passes

theorem resolve_member {body : JsonValue} (sent : request.body = .ok body) (name : String) :
    resolve [.key "params", .index 0, .key name] body =
      (argument request).bind (member? name) := by
  have split := resolve_append [.key "params", .index 0] [.key name] body
  rw [argument, sent]
  refine split.trans (congrArg _ (funext fun value => ?_))
  rw [resolve]
  exact Option.bind_fun_some _

section

variable (documented : sonic.Documented)
include documented

variable {check : JsonValue → Except String Unit}

theorem checkMember_iff {name : String} :
    checkMember sonic request name check = .ok () ↔
      ∃ value first others, argument request = some value ∧
        valuesOf name value = first :: others ∧ check first = .ok () := by
  unfold checkMember
  cases sent : request.body with
  | error message => simp [argument, sent]
  | ok body =>
    have path := resolve_member sent name
    constructor
    · intro passes
      cases node : sonic.get body [.key "params", .index 0, .key name] with
      | notExists | failed message => simp [node] at passes
      | found first =>
        rw [documented.get, path, Option.bind_eq_some_iff] at node
        obtain ⟨value, isArgument, isFirst⟩ := node
        obtain ⟨others, members⟩ := List.head?_eq_some_iff.mp isFirst
        refine ⟨value, first, others, isArgument, members, ?_⟩
        have node := (documented.get body _ first).mpr
          (path.trans (Option.bind_eq_some_iff.mpr ⟨value, isArgument, isFirst⟩))
        simpa [node] using passes
    · rintro ⟨value, first, others, isArgument, members, passes⟩
      have node := (documented.get body _ first).mpr (path.trans (Option.bind_eq_some_iff.mpr
        ⟨value, isArgument, List.head?_eq_some_iff.mpr ⟨others, members⟩⟩))
      simpa [node] using passes

/-- When a check of the first member is enough.  A value of the wrong shape
passes and names nothing; one of the right shape passes only with allowed
addresses; and repetitions are never looked at. -/
theorem checkMember_restricts_iff {shape : JsonValue → Prop}
    (sound : ∀ value, shape value → check value = .ok () → NamesAllowed contracts value)
    (shapeless : ∀ value, ¬ shape value → check value = .ok () ∧ ¬ NamesAllowed contracts value)
    (name : String) (request : RequestHolder) :
    (checkMember sonic request name check = .ok () → Restricted contracts name request) ↔
      FirstIs shape name request ∧ RepeatsAllowed contracts name check request := by
  rw [checkMember_iff documented]
  constructor
  · intro restricts
    -- an accepted request is restricted, and its argument is the one at hand
    have all : ∀ value first others, argument request = some value →
        valuesOf name value = first :: others → check first = .ok () →
        ∀ member ∈ first :: others, NamesAllowed contracts member := by
      intro value first others isArgument members passes
      obtain ⟨same, isSame, _, allowed⟩ :=
        restricts ⟨value, first, others, isArgument, members, passes⟩
      obtain rfl := Option.some.inj (isArgument.symm.trans isSame)
      rwa [members] at allowed
    constructor
    · intro value first others isArgument members
      by_contra wrong
      obtain ⟨passes, unnamed⟩ := shapeless first wrong
      exact unnamed (all value first others isArgument members passes first List.mem_cons_self)
    · intro value first others isArgument members passes other mem
      exact all value first others isArgument members passes other (List.mem_cons_of_mem _ mem)
  · rintro ⟨isShape, repeats⟩ ⟨value, first, others, isArgument, members, passes⟩
    refine ⟨value, isArgument, by simp [members], ?_⟩
    rw [members]
    intro member mem
    rcases List.mem_cons.mp mem with rfl | mem
    · exact sound member (isShape value member others isArgument members) passes
    · exact repeats value first others isArgument members passes member mem

theorem filterAddresses_array (items : List JsonValue) :
    filterAddresses sonic (.array items) = addressStrings items := by
  rw [filterAddresses, documented.array]
  rfl

theorem checkFilter_of_not_isAddressed (shapeless : ¬ IsAddressed value) :
    checkFilter sonic contracts value = .ok () ∧ namedAddresses value = [] := by
  cases value with
  | string address => exact absurd trivial shapeless
  | array items =>
    obtain rfl : items = [] := not_not.mp shapeless
    rw [checkFilter, filterAddresses_array documented]
    exact ⟨rfl, rfl⟩
  | _ => exact ⟨rfl, rfl⟩

theorem namesAllowed_of_checkFilter (addressed : IsAddressed value)
    (passes : checkFilter sonic contracts value = .ok ()) : NamesAllowed contracts value := by
  unfold checkFilter at passes
  split at passes
  · cases passes
  · rename_i addresses read
    rw [checkAddresses_iff] at passes
    cases value with
    | string address =>
      obtain rfl := Except.ok.inj read
      exact ⟨List.cons_ne_nil _ _, passes⟩
    | array items =>
      rw [filterAddresses_array documented] at read
      obtain ⟨named, same⟩ := namedAddresses_of_addressStrings read
      rw [NamesAllowed, named]
      refine ⟨fun none => addressed ?_, passes⟩
      exact List.eq_nil_of_length_eq_zero (by rw [← same, none]; rfl)
    | _ => exact addressed.elim

theorem checkTo_restricts_iff (request : RequestHolder) :
    (checkMember sonic request "to" (checkTo contracts) = .ok () →
        Restricted contracts "to" request) ↔
      RepeatsAllowed contracts "to" (checkTo contracts) request := by
  rw [checkMember_restricts_iff documented (fun value _ => namesAllowed_of_checkTo)
    (fun _ wrong => absurd trivial wrong)]
  exact and_iff_right fun _ _ _ _ _ => trivial

theorem checkFilter_restricts_iff (request : RequestHolder) :
    (checkMember sonic request "address" (checkFilter sonic contracts) = .ok () →
        Restricted contracts "address" request) ↔
      FirstIs IsAddressed "address" request ∧
        RepeatsAllowed contracts "address" (checkFilter sonic contracts) request := by
  apply checkMember_restricts_iff documented
  · intro value addressed passes
    exact namesAllowed_of_checkFilter documented addressed passes
  · intro value shapeless
    obtain ⟨passes, unnamed⟩ := checkFilter_of_not_isAddressed documented shapeless
    exact ⟨passes, fun named => named.1 unnamed⟩

end

theorem postCheck_iff {methods : AuthMethods} :
    postCheck sonic methods contracts request = .ok () ↔
      checkMethod methods.allowed methods.forbidden request.method = .ok () ∧
        checkContracts sonic contracts request = .ok () := by
  unfold postCheck
  cases checkMethod methods.allowed methods.forbidden request.method <;> simp

end Checks

/-- The check of a key with an allow-list lets a call or a log query through
only if, whichever member is read, it names allowed contracts and at least one,
exactly as long as no repeated member names others and the address of a log
query is a text or an array that is not empty. -/
theorem postCheckSetting_restricts_iff {sonic : Sonic} (documented : sonic.Documented)
    {key : Key} (limited : key.contracts ≠ []) (request : RequestHolder) :
    (key.postCheckSetting sonic request = .ok () →
      (request.method = "eth_call" → Restricted key.contracts "to" request) ∧
      (request.method = "eth_getLogs" → Restricted key.contracts "address" request)) ↔
    (checkMethod key.methods.allowed key.methods.forbidden request.method = .ok () →
      (request.method = "eth_call" →
        RepeatsAllowed key.contracts "to" (checkTo key.contracts) request) ∧
      (request.method = "eth_getLogs" → FirstIs IsAddressed "address" request ∧
        RepeatsAllowed key.contracts "address" (checkFilter sonic key.contracts) request)) := by
  rw [key.postCheckSetting_eq, postCheck_iff, and_imp]
  apply imp_congr_right
  intro _
  rw [checkContracts, if_pos limited]
  by_cases isCall : request.method = "eth_call"
  · rw [if_pos isCall]
    have isNotLogs : ¬ request.method = "eth_getLogs" := by simp [isCall]
    simpa [isCall, isNotLogs] using checkTo_restricts_iff documented request
  · rw [if_neg isCall]
    by_cases isLogs : request.method = "eth_getLogs"
    · rw [if_pos isLogs]
      simpa [isCall, isLogs] using checkFilter_restricts_iff documented request
    · simp [isCall, isLogs]

def plainSonic : Sonic where
  get root path :=
    match resolve path root with
    | some value => .found value
    | none => .notExists
  array
    | .array items => .ok items
    | _ => .error "not an array"

theorem documented_plainSonic : plainSonic.Documented where
  get root path value := by
    simp only [plainSonic]
    split
    · rename_i found isFound
      simp [isFound]
    · rename_i missing
      simp [missing]
  array _ := rfl

def oneContract : Key :=
  .localKey ⟨"id", "secret", some { authContracts := some ⟨["0xabc"]⟩ }⟩

def logsWith (filter : List (String × JsonValue)) : RequestHolder where
  method := "eth_getLogs"
  params := .value (.array [.object filter])

/-- A query for the one contract is accepted, and is restricted to it. -/
theorem postCheckSetting_restricts_text :
    oneContract.postCheckSetting plainSonic (logsWith [("address", .string "0xabc")]) = .ok () ∧
      Restricted ["0xabc"] "address" (logsWith [("address", .string "0xabc")]) := by
  have accepted : oneContract.postCheckSetting plainSonic
      (logsWith [("address", .string "0xabc")]) = .ok () := by decide
  have restricts := @postCheckSetting_restricts_iff plainSonic documented_plainSonic oneContract
    (by decide) (logsWith [("address", .string "0xabc")])
  refine ⟨accepted, (restricts.mpr (fun _ => ⟨?_, fun _ => ⟨?_, ?_⟩⟩) accepted).2 rfl⟩
  · intro isCall
    exact absurd isCall (by decide)
  · intro value first others isArgument members
    obtain rfl := Option.some.inj isArgument
    obtain ⟨rfl, rfl⟩ := List.cons.inj members
    trivial
  · intro value first others isArgument members _ other mem
    obtain rfl := Option.some.inj isArgument
    obtain ⟨rfl, rfl⟩ := List.cons.inj members
    cases mem

/-- A null address is accepted although it names no contract: the query is then
answered for all of them. -/
theorem null_address_is_accepted :
    oneContract.postCheckSetting plainSonic (logsWith [("address", .null)]) = .ok () ∧
      ¬ Restricted oneContract.contracts "address" (logsWith [("address", .null)]) := by
  refine ⟨by decide, ?_⟩
  rintro ⟨value, isArgument, _, allowed⟩
  obtain rfl := Option.some.inj isArgument
  exact (allowed .null List.mem_cons_self).1 rfl

end Nodecore.KeyManagement
