/-
# Streaming a batch

The responses of a batch come in any order and are written as one array in the order
of the requests.  A response whose turn it is is read through as it comes; others
are kept until their turn.  Each is followed by a separator, and the last separator
is cut off.  For that the last read of the sorted responses has to have a byte, so
a read that fills its buffer looks one byte ahead.

Read to its end the stream gives the array, whatever the order of the responses, the
pieces they come in and the sizes of the buffers.  The readers of the bodies keep to the
contract of readers: a read into a buffer gives at least one byte or the end.  One that gave
nothing when a byte is looked ahead would be taken for one that has ended.
-/

import Mathlib.Algebra.GroupWithZero.Nat
import Mathlib.Data.List.Nodup
import Nodecore.Lib.Bytes
import Nodecore.Lib.Loop
import Nodecore.Lib.Reader

namespace Nodecore.Server

open Lib

def jsonArrayOpen : UInt8 := byte '['

def jsonArrayClose : UInt8 := byte ']'

def jsonArraySep : UInt8 := byte ','

structure Response where
  responseReader : Source UInt8
  order : ℤ
  deriving DecidableEq

/-- The channel holds the responses in the order in which they come; it is closed behind
them. -/
structure SortingReader where
  data : List Response
  cur : Option (List (Source UInt8))
  nextOrder : ℕ
  buff : List (Option (List UInt8))
  deriving DecidableEq

def newSortingReader (data : List Response) (expected : ℕ) : SortingReader where
  data := data
  cur := none
  nextOrder := 0
  buff := List.replicate expected none

variable {cur : List (Source UInt8)} {data : List Response} {body : List UInt8} {size i : ℕ}
  {res : Response} {a : SortingReader}

namespace SortingReader

/-- A response that was kept is read when its turn comes. -/
def load (a : SortingReader) : SortingReader :=
  match a.cur, a.buff[a.nextOrder]? with
  | none, some (some bt) => { a with cur := some [.ofBytes bt, .single jsonArraySep] }
  | _, _ => a

/-- A buffer is full.  One byte is read ahead and put back. -/
def peek (a : SortingReader) (written : List UInt8) (cur : List (Source UInt8)) :
    Reading UInt8 SortingReader :=
  let ahead := multiRead Source.read cur 1
  match ahead.bytes with
  | [] =>
    if a.buff.length - 1 ≤ a.nextOrder then
      ⟨written, ahead.error, { a with cur := some ahead.next }⟩
    else ⟨written, none, { a with cur := none, nextOrder := a.nextOrder + 1 }⟩
  | b :: _ => ⟨written, none, { a with cur := some (.single b :: ahead.next) }⟩

/-- The place of a response.  One without an order is put behind all others. -/
def place (a : SortingReader) (res : Response) : ℕ :=
  if res.order < 0 then a.buff.length else res.order.toNat

/-- A response from the channel: it is its turn, or it is kept. -/
def accept (a : SortingReader) (res : Response) : Except IoError SortingReader :=
  if a.place res = a.nextOrder then
    .ok { a with cur := some [res.responseReader, .single jsonArraySep] }
  else
    match res.responseReader.readAll with
    | .error error => .error error
    | .ok bytes =>
      .ok { a with
        buff :=
          if a.buff.length ≤ a.place res then a.buff ++ [some bytes]
          else a.buff.set (a.place res) (some bytes) }

/-- A read under way. -/
structure Progress where
  reader : SortingReader
  written : List UInt8

/-- How many reads the readers of a response may spend on giving nothing. -/
def patience (cur : List (Source UInt8)) : ℕ := (cur.map fun source => source.plan.length).sum

def round (size : ℕ) (state : Progress) : Progress ⊕ Reading UInt8 SortingReader :=
  let a := state.reader.load
  match a.cur with
  | some cur =>
    let room := size - state.written.length
    let filled := readFull (multiRead Source.read) (patience cur + room + 1) cur room
    match filled.error with
    | none => .inr (a.peek (state.written ++ filled.bytes) filled.next)
    | some .failed =>
      .inr ⟨state.written ++ filled.bytes, some .failed, { a with cur := some filled.next }⟩
    | some _ =>
      .inl ⟨{ a with cur := none, nextOrder := a.nextOrder + 1 },
        state.written ++ filled.bytes⟩
  | none =>
    match a.data with
    | [] =>
      if a.nextOrder < a.buff.length then
        .inl ⟨{ a with nextOrder := a.nextOrder + 1 }, state.written⟩
      else .inr ⟨state.written, some .eof, a⟩
    | res :: data =>
      match accept { a with data := data } res with
      | .ok next => .inl ⟨next, state.written⟩
      | .error error => .inr ⟨state.written, some error, { a with data := data }⟩

/-- Each round uses up a response or passes one by. -/
def pending (a : SortingReader) : ℕ :=
  2 * a.data.length + (a.buff.length - a.nextOrder) + a.cur.toList.length

theorem pending_accept {next : SortingReader} (isFree : a.cur = none)
    (accepted : a.accept res = .ok next) : next.pending ≤ a.pending + 1 := by
  unfold accept at accepted
  split at accepted
  · cases accepted
    simp [pending, isFree]
  · split at accepted
    · cases accepted
    · cases accepted
      simp only [pending]
      split
      · rw [List.length_append, List.length_singleton]
        omega
      · rw [List.length_set]
        omega

theorem load_cases (a : SortingReader) :
    (a.load = a ∧ (a.cur = none → ∀ bt, a.buff[a.nextOrder]? ≠ some (some bt))) ∨
      ∃ bt, a.cur = none ∧ a.buff[a.nextOrder]? = some (some bt) ∧
        a.load = { a with cur := some [.ofBytes bt, .single jsonArraySep] } := by
  unfold load
  split
  · rename_i bt isFree kept
    exact .inr ⟨bt, isFree, kept, rfl⟩
  · rename_i unkept
    exact .inl ⟨rfl, fun isFree bt kept => unkept bt isFree kept⟩

theorem pending_passed (loaded : a.load.cur = some cur) :
    pending { a.load with cur := none, nextOrder := a.load.nextOrder + 1 } < a.pending := by
  rcases a.load_cases with ⟨same, -⟩ | ⟨bt, isFree, kept, isLoad⟩
  · rw [same] at loaded ⊢
    simp only [pending, loaded, Option.toList_some, Option.toList_none, List.length_singleton,
      List.length_nil]
    omega
  · obtain ⟨within, -⟩ := List.getElem?_eq_some_iff.mp kept
    rw [isLoad]
    simp only [pending, isFree, Option.toList_none, List.length_nil]
    omega

theorem load_of_free (isFree : a.load.cur = none) : a.load = a := by
  rcases a.load_cases with ⟨same, -⟩ | ⟨bt, -, -, isLoad⟩
  · exact same
  · rw [isLoad] at isFree
    cases isFree

theorem pending_round {state next : Progress} (goesOn : round size state = .inl next) :
    next.reader.pending < state.reader.pending := by
  unfold round at goesOn
  simp only at goesOn
  split at goesOn
  · rename_i cur loaded
    split at goesOn
    · cases goesOn
    · cases goesOn
    · cases goesOn
      exact pending_passed loaded
  · rename_i isFree
    have same := load_of_free isFree
    rw [same] at goesOn isFree
    split at goesOn
    · rename_i closed
      split at goesOn
      · cases goesOn
        simp only [pending]
        omega
      · cases goesOn
    · rename_i res data isData
      split at goesOn
      · rename_i accepted isAccepted
        cases goesOn
        have free : ({ state.reader with data := data } : SortingReader).cur = none := isFree
        have atMost := pending_accept free isAccepted
        simp only [pending, isData, List.length_cons] at atMost ⊢
        omega
      · cases goesOn

def readLoop (size : ℕ) : Loop Progress (Reading UInt8 SortingReader) where
  body := round size
  variant state := state.reader.pending
  decreases goesOn := pending_round goesOn

def read (a : SortingReader) (size : ℕ) : Reading UInt8 SortingReader :=
  (readLoop size).exec ⟨a, []⟩

/-- The first of the responses that are not being read yet. -/
def first (a : SortingReader) : ℕ := if a.cur.isSome then a.nextOrder + 1 else a.nextOrder

/-- The bodies from a place on, with a separator behind each. -/
def separated (bodies : List (List UInt8)) (i : ℕ) : List UInt8 :=
  (bodies.drop i).flatMap fun body => body ++ [jsonArraySep]

def remaining (bodies : List (List UInt8)) (a : SortingReader) : List UInt8 :=
  (a.cur.getD []).flatMap Source.rest ++ separated bodies a.first

/-- Each response that is not being read yet is kept or will come, once. -/
structure Expects (bodies : List (List UInt8)) (a : SortingReader) : Prop where
  sized : a.buff.length = bodies.length
  current : ∀ cur, a.cur = some cur →
    a.nextOrder < bodies.length ∧ ∀ source ∈ cur, source.Steady
  held : ∀ (i : ℕ) (body : List UInt8), a.first ≤ i → bodies[i]? = some body →
    a.buff[i]? = some (if (i : ℤ) ∈ a.data.map Response.order then none else some body)
  orders : (a.data.map Response.order).Nodup
  coming : ∀ res ∈ a.data, ∃ i : ℕ, a.first ≤ i ∧ res.order = i ∧
    bodies[i]? = some res.responseReader.rest ∧ res.responseReader.Steady

variable {bodies : List (List UInt8)} {a : SortingReader}

theorem separated_of_le (past : bodies.length ≤ i) : separated bodies i = [] := by
  rw [separated, List.drop_eq_nil_of_le past]
  rfl

theorem separated_of_getElem? (isBody : bodies[i]? = some body) :
    separated bodies i = body ++ jsonArraySep :: separated bodies (i + 1) := by
  obtain ⟨within, isHere⟩ := List.getElem?_eq_some_iff.mp isBody
  rw [separated, separated, List.drop_eq_getElem_cons within, isHere, List.flatMap_cons,
    List.append_assoc]
  rfl

theorem separated_ne_nil (within : i < bodies.length) : separated bodies i ≠ [] := by
  rw [separated_of_getElem? (List.getElem?_eq_getElem within)]
  simp

theorem first_of_some (isCur : a.cur = some cur) : a.first = a.nextOrder + 1 := by
  simp [first, isCur]

theorem first_of_none (isFree : a.cur = none) : a.first = a.nextOrder := by
  simp [first, isFree]

theorem remaining_turn (isFree : a.cur = none) (isBody : bodies[a.nextOrder]? = some body)
    {source : Source UInt8} (whole : source.rest = body) :
    remaining bodies { a with cur := some [source, .single jsonArraySep] } =
      remaining bodies a := by
  rw [remaining, remaining, first_of_none isFree, first_of_some rfl, isFree,
    separated_of_getElem? isBody]
  simp [whole, Source.single]

variable {next : List (Source UInt8)}

section

variable (expects : Expects bodies a)
include expects

theorem Expects.turn (isFree : a.cur = none)
    (isBody : bodies[a.nextOrder]? = some body) {source : Source UInt8} (steady : source.Steady)
    (listed : data.Sublist a.data) (gone : (a.nextOrder : ℤ) ∉ data.map Response.order)
    (others : ∀ i : ℕ, i ≠ a.nextOrder →
      ((i : ℤ) ∈ a.data.map Response.order ↔ (i : ℤ) ∈ data.map Response.order)) :
    Expects bodies { a with data := data, cur := some [source, .single jsonArraySep] } := by
  obtain ⟨within, -⟩ := List.getElem?_eq_some_iff.mp isBody
  refine ⟨expects.sized, ?_, ?_, expects.orders.sublist (listed.map _), ?_⟩
  · rintro cur isCur
    cases isCur
    refine ⟨within, ?_⟩
    simpa using ⟨steady, Source.steady_single jsonArraySep⟩
  · intro i body isFirst isBody
    rw [first_of_some rfl] at isFirst
    have held := expects.held i body ((first_of_none isFree).trans_le (Nat.le_of_succ_le isFirst))
      isBody
    simp only [others i (Nat.ne_of_gt isFirst)] at held
    exact held
  · intro res isComing
    obtain ⟨i, isFirst, order, isRest, steady⟩ := expects.coming res (listed.subset isComing)
    refine ⟨i, ?_, order, isRest, steady⟩
    rw [first_of_none isFree] at isFirst
    rw [first_of_some rfl]
    refine Nat.lt_of_le_of_ne isFirst ?_
    rintro rfl
    exact gone (List.mem_map.mpr ⟨res, isComing, order⟩)

theorem Expects.load : Expects bodies a.load ∧ remaining bodies a.load = remaining bodies a := by
  rcases a.load_cases with ⟨same, -⟩ | ⟨bt, isFree, kept, isLoad⟩
  · rw [same]
    exact ⟨expects, rfl⟩
  · obtain ⟨within, -⟩ := List.getElem?_eq_some_iff.mp kept
    rw [expects.sized] at within
    have isBody := List.getElem?_eq_getElem within
    have held := expects.held a.nextOrder _ (first_of_none isFree).le isBody
    rw [kept] at held
    split at held
    · cases held
    · rename_i gone
      have same : bt = bodies[a.nextOrder] := Option.some.inj (Option.some.inj held)
      rw [isLoad]
      exact ⟨expects.turn isFree isBody (Source.steady_ofBytes bt) (List.Sublist.refl _) gone
        (fun _ _ => Iff.rfl), remaining_turn isFree isBody same⟩

theorem Expects.passed (isCur : a.cur = some cur) :
    Expects bodies { a with cur := none, nextOrder := a.nextOrder + 1 } ∧
      remaining bodies a = cur.flatMap Source.rest ++
        remaining bodies { a with cur := none, nextOrder := a.nextOrder + 1 } := by
  have same : ({ a with cur := none, nextOrder := a.nextOrder + 1 } : SortingReader).first =
      a.first := by rw [first_of_some isCur, first_of_none rfl]
  refine ⟨⟨expects.sized, ?_, ?_, expects.orders, ?_⟩, ?_⟩
  · intro other isOther
    cases isOther
  · rw [same]
    exact expects.held
  · rw [same]
    exact expects.coming
  · rw [remaining, remaining, same, isCur]
    rfl

theorem Expects.readOn (isCur : a.cur = some cur) (steady : ∀ source ∈ next, source.Steady) :
    Expects bodies { a with cur := some next } ∧
      remaining bodies { a with cur := some next } =
        next.flatMap Source.rest ++ separated bodies (a.nextOrder + 1) := by
  have same : ({ a with cur := some next } : SortingReader).first = a.first := by
    rw [first_of_some isCur, first_of_some rfl]
  refine ⟨⟨expects.sized, ?_, ?_, expects.orders, ?_⟩, rfl⟩
  · rintro other isOther
    cases isOther
    exact ⟨(expects.current cur isCur).1, steady⟩
  · rw [same]
    exact expects.held
  · rw [same]
    exact expects.coming

theorem Expects.closed (isFree : a.cur = none) (isClosed : a.data = [])
    (unkept : ∀ bt, a.buff[a.nextOrder]? ≠ some (some bt)) : bodies.length ≤ a.nextOrder := by
  by_contra more
  have isBody := List.getElem?_eq_getElem (Nat.lt_of_not_le more)
  have held := expects.held a.nextOrder _ (first_of_none isFree).le isBody
  rw [isClosed, if_neg (by simp)] at held
  exact unkept _ held

theorem Expects.kept (isFree : a.cur = none) (isData : a.data = res :: data) (order : res.order = i)
    (isRest : bodies[i]? = some res.responseReader.rest) :
    Expects bodies { a with
      data := data, buff := a.buff.set i (some res.responseReader.rest) } := by
  have distinct := expects.orders
  rw [isData, List.map_cons, List.nodup_cons, order] at distinct
  refine ⟨?_, ?_, ?_, distinct.2, ?_⟩
  · rw [List.length_set]
    exact expects.sized
  · intro cur isCur
    rw [isFree] at isCur
    cases isCur
  · intro j body isFirst isBody
    have held := expects.held j body isFirst isBody
    rw [isData, List.map_cons, order] at held
    by_cases same : j = i
    · subst same
      rw [isRest] at isBody
      obtain ⟨within, -⟩ := List.getElem?_eq_some_iff.mp held
      rw [if_neg distinct.1, List.getElem?_set_self within, isBody]
    · have apart : (j : ℤ) ≠ i := by omega
      simp only [List.mem_cons, apart, false_or] at held
      rw [List.getElem?_set_ne (Ne.symm same), held]
  · intro other isComing
    exact expects.coming other (isData ▸ List.mem_cons_of_mem res isComing)

theorem Expects.accept (isFree : a.cur = none) (isData : a.data = res :: data) :
    ∃ next, ({ a with data := data } : SortingReader).accept res = .ok next ∧
      Expects bodies next ∧ remaining bodies next = remaining bodies a := by
  obtain ⟨i, isFirst, order, isRest, steady⟩ :=
    expects.coming res (isData ▸ List.mem_cons_self)
  have isPlace : ({ a with data := data } : SortingReader).place res = i := by
    rw [place, order, if_neg (by omega), Int.toNat_natCast]
  have distinct := expects.orders
  rw [isData, List.map_cons, List.nodup_cons, order] at distinct
  unfold SortingReader.accept
  by_cases isTurn : i = a.nextOrder
  · rw [isPlace, if_pos isTurn]
    subst isTurn
    refine ⟨_, rfl, expects.turn isFree isRest steady ?_ distinct.1 ?_,
      remaining_turn isFree isRest rfl⟩
    · rw [isData]
      exact List.sublist_cons_self res data
    · intro j other
      have apart : (j : ℤ) ≠ a.nextOrder := by omega
      rw [isData, List.map_cons, order, List.mem_cons, or_iff_right apart]
  · rw [isPlace, if_neg isTurn]
    have all : res.responseReader.readAll = .ok res.responseReader.rest := by
      rw [Source.readAll, steady.1]
    obtain ⟨within, -⟩ := List.getElem?_eq_some_iff.mp isRest
    rw [← expects.sized] at within
    simp only [all, if_neg (Nat.not_le_of_lt within)]
    exact ⟨_, rfl, expects.kept isFree isData order isRest, rfl⟩

end

/-- The result of a read into a buffer of a size: what was to be written is split, a full
buffer leaves something to be written, and the end is told when nothing is left. -/
structure Written (bodies : List (List UInt8)) (before : List UInt8) (size : ℕ)
    (reading : Reading UInt8 SortingReader) : Prop where
  expects : Expects bodies reading.next
  split : before = reading.bytes ++ remaining bodies reading.next
  fits : reading.bytes.length ≤ size
  delivers : reading.error = none ∧ reading.bytes ≠ [] ∧ remaining bodies reading.next ≠ [] ∨
    reading.error = some .eof ∧ remaining bodies reading.next = []

/-- What holds from round to round. -/
structure Writing (bodies : List (List UInt8)) (before : List UInt8) (size : ℕ)
    (state : Progress) : Prop where
  expects : Expects bodies state.reader
  split : before = state.written ++ remaining bodies state.reader
  room : state.written.length < size

theorem written_peek {before written : List UInt8} (expects : Expects bodies a)
    (isCur : a.cur = some cur) (steady : ∀ source ∈ next, source.Steady)
    (split : before = written ++ (next.flatMap Source.rest ++ separated bodies (a.nextOrder + 1)))
    (full : written.length = size) (positive : 0 < size) :
    Written bodies before size (a.peek written next) := by
  have nonempty : written ≠ [] := List.ne_nil_of_length_pos (full ▸ positive)
  obtain ⟨fits, ahead⟩ := Source.delivers.multiRead next 1 steady Nat.one_pos
  unfold peek
  simp only
  split
  · rename_i isEmpty
    rcases ahead with ⟨-, some, -, -⟩ | ⟨isEof, whole⟩
    · exact absurd isEmpty some
    · rw [isEmpty] at whole
      rw [whole, List.nil_append] at split
      split
      · -- This is the last response, and its separator is written.
        rename_i isLast
        rw [expects.sized] at isLast
        have ended : separated bodies (a.nextOrder + 1) = [] := separated_of_le (by omega)
        have rests := multiRead_next_of_eof isEof
        obtain ⟨reads, rest⟩ := expects.readOn isCur
          (by simp : ∀ source ∈ ([] : List (Source UInt8)), source.Steady)
        rw [ended] at rest split
        rw [rests]
        exact ⟨reads, by rw [rest]; exact split, full.le, .inr ⟨isEof, rest⟩⟩
      · rename_i isMiddle
        rw [expects.sized] at isMiddle
        have more : separated bodies (a.nextOrder + 1) ≠ [] := separated_ne_nil (by omega)
        exact ⟨(expects.passed isCur).1, split, full.le, .inl ⟨rfl, nonempty, more⟩⟩
  · rename_i b others isAhead
    rw [isAhead] at fits ahead
    obtain rfl : others = [] := List.length_eq_zero_iff.mp (by simpa using fits)
    have putBack : next.flatMap Source.rest =
          (Source.single b :: (multiRead Source.read next 1).next).flatMap Source.rest ∧
        ∀ source ∈ (multiRead Source.read next 1).next, source.Steady := by
      rcases ahead with ⟨-, -, stays, parts⟩ | ⟨isEof, whole⟩
      · exact ⟨parts, stays⟩
      · rw [multiRead_next_of_eof isEof]
        exact ⟨whole, by simp⟩
    obtain ⟨reads, rest⟩ := expects.readOn isCur
      (List.forall_mem_cons.mpr ⟨Source.steady_single b, putBack.2⟩)
    rw [putBack.1] at split
    refine ⟨reads, ?_, full.le, .inl ⟨rfl, nonempty, ?_⟩⟩
    · rw [rest]
      exact split
    · rw [rest]
      simp [Source.single]

theorem Writing.round {before : List UInt8} {state : Progress}
    (writing : Writing bodies before size state) :
    Sum.elim (Writing bodies before size) (Written bodies before size)
      (SortingReader.round size state) := by
  obtain ⟨expects, split, room⟩ := writing
  obtain ⟨loads, same⟩ := expects.load
  rw [← same] at split
  unfold SortingReader.round
  cases isCur : state.reader.load.cur with
  | some cur =>
    have steady := (loads.current cur isCur).2
    have enough : size - state.written.length ≤
        patience cur + (size - state.written.length) + 1 := by omega
    obtain ⟨parts, stays, ended⟩ :=
      Source.delivers.multiRead.readFull multiRead_rests enough steady
    obtain ⟨passes, passed⟩ := loads.passed isCur
    rw [passed, parts] at split
    rcases ended with ⟨noError, full⟩ | ⟨isEnd, short, empty⟩
    · simp only [isCur, noError, Sum.elim_inr]
      refine written_peek loads isCur stays ?_ ?_ (by omega)
      · rw [split, List.append_assoc, List.append_assoc]
        rfl
      · rw [List.length_append, full]
        omega
    · rw [empty, List.append_nil, ← List.append_assoc] at split
      have fits := Nat.add_lt_of_lt_sub' short
      rw [← List.length_append] at fits
      rcases isEnd with isEof | isEof
      all_goals
        simp only [isCur, isEof]
        exact ⟨passes, split, fits⟩
  | none =>
    have unloaded := load_of_free isCur
    rw [unloaded] at isCur split
    simp only [unloaded, isCur]
    cases isData : state.reader.data with
    | nil =>
      have unkept : ∀ bt, state.reader.buff[state.reader.nextOrder]? ≠ some (some bt) := by
        rcases state.reader.load_cases with ⟨-, unkept⟩ | ⟨bt, -, -, isLoad⟩
        · exact unkept isCur
        · rw [unloaded] at isLoad
          rw [isLoad] at isCur
          cases isCur
      have past := expects.closed isCur isData unkept
      have nothing : remaining bodies state.reader = [] := by
        rw [remaining, isCur, first_of_none isCur, separated_of_le past]
        rfl
      rw [if_neg (by rw [expects.sized]; omega)]
      exact ⟨expects, split, room.le, .inr ⟨rfl, nothing⟩⟩
    | cons res data =>
      obtain ⟨next, accepted, expects, same⟩ := expects.accept isCur isData
      rw [isCur] at accepted
      rw [← same] at split
      simp only [accepted]
      exact ⟨expects, split, room⟩

theorem Expects.read (expects : Expects bodies a) (positive : 0 < size) :
    Written bodies (remaining bodies a) size (a.read size) := by
  rw [SortingReader.read, Loop.exec_eq_run]
  refine (readLoop size).run_post (Writing bodies (remaining bodies a) size)
    (Written bodies (remaining bodies a) size) ?_ ?_ ⟨expects, rfl, positive⟩
  · intro state next writing goesOn
    have round := writing.round
    rw [show SortingReader.round size state = .inl next from goesOn] at round
    exact round
  · intro state reading writing ends
    have round := writing.round
    rw [show SortingReader.round size state = .inr reading from ends] at round
    exact round

end SortingReader

/-- The parts of the stream. -/
inductive Part
  | singleByteReader (b : UInt8)
  | dropLastReader (r : SortingReader)

/-- The last byte before the end is cut off. -/
def Part.read : Part → ℕ → Reading UInt8 Part
  | singleByteReader b, _ => ⟨[b], some .eof, singleByteReader b⟩
  | dropLastReader r, size =>
    let reading := r.read size
    ⟨if reading.error = some .eof then reading.bytes.dropLast else reading.bytes,
      reading.error, dropLastReader reading.next⟩

def Part.content (bodies : List (List UInt8)) : Part → List UInt8
  | singleByteReader b => [b]
  | dropLastReader r => (r.remaining bodies).dropLast

/-- There is a separator to be cut off. -/
def Part.Valid (bodies : List (List UInt8)) : Part → Prop
  | singleByteReader _ => True
  | dropLastReader r => r.Expects bodies ∧ r.remaining bodies ≠ []

theorem Part.delivers (bodies : List (List UInt8)) :
    Delivers Part.read (Part.content bodies) (Part.Valid bodies) := by
  intro part size valid positive
  cases part with
  | singleByteReader b => exact ⟨positive, .inr ⟨rfl, rfl⟩⟩
  | dropLastReader r =>
    obtain ⟨expects, split, fits, delivers⟩ := valid.1.read positive
    simp only [Part.read]
    rcases delivers with ⟨noError, some, more⟩ | ⟨isEof, nothing⟩
    · rw [if_neg (by simp [noError])]
      refine ⟨fits, .inl ⟨noError, some, ⟨expects, more⟩, ?_⟩⟩
      change (r.remaining bodies).dropLast = _
      rw [split, List.dropLast_append_of_ne_nil more]
      rfl
    · rw [if_pos isEof]
      refine ⟨?_, .inr ⟨isEof, ?_⟩⟩
      · rw [List.length_dropLast]
        omega
      · change (r.remaining bodies).dropLast = _
        rw [split, nothing, List.append_nil]

def arraySortingStream (data : List Response) (expected : ℕ) : List Part :=
  [.singleByteReader jsonArrayOpen, .dropLastReader (newSortingReader data expected),
    .singleByteReader jsonArrayClose]

def arrayOf (bodies : List (List UInt8)) : List UInt8 :=
  [jsonArrayOpen] ++ [jsonArraySep].intercalate bodies ++ [jsonArrayClose]

theorem separated_eq_intercalate {bodies : List (List UInt8)} (nonempty : bodies ≠ []) :
    SortingReader.separated bodies 0 = [jsonArraySep].intercalate bodies ++ [jsonArraySep] := by
  rw [SortingReader.separated, List.drop_zero]
  induction bodies with
  | nil => exact absurd rfl nonempty
  | cons body bodies ih =>
    cases bodies with
    | nil => simp [List.intercalate]
    | cons second others =>
      rw [List.flatMap_cons, ih (List.cons_ne_nil _ _)]
      simp [List.intercalate]

/-- The responses of a batch, each with the place of its request. -/
def inOrder (readers : List (Source UInt8)) : List Response :=
  readers.mapIdx fun i reader => ⟨reader, i⟩

theorem order_inOrder (readers : List (Source UInt8)) :
    (inOrder readers).map Response.order = (List.range readers.length).map fun i :
    ℕ => (i : ℤ) := by
  apply List.ext_getElem?
  intro i
  by_cases within : i < readers.length
  · simp [inOrder, within]
  · simp [inOrder, within]

theorem expects_start {readers : List (Source UInt8)} (steady : ∀ reader ∈ readers, reader.Steady)
    {responses : List Response} (arrive : responses.Perm (inOrder readers)) :
    (newSortingReader responses readers.length).Expects (readers.map Source.rest) := by
  have orders : (responses.map Response.order).Perm
      ((List.range readers.length).map fun i : ℕ => (i : ℤ)) :=
    order_inOrder readers ▸ arrive.map Response.order
  refine ⟨?_, ?_, ?_, ?_, ?_⟩
  · simp [newSortingReader]
  · intro cur isCur
    cases isCur
  · intro i body _ isBody
    obtain ⟨within, -⟩ := List.getElem?_eq_some_iff.mp isBody
    rw [List.length_map] at within
    have comes : (i : ℤ) ∈ responses.map Response.order :=
      orders.mem_iff.mpr (List.mem_map.mpr ⟨i, List.mem_range.mpr within, rfl⟩)
    rw [newSortingReader, if_pos comes, List.getElem?_replicate, if_pos within]
  · refine orders.nodup_iff.mpr (List.nodup_range.map ?_)
    exact fun i j same => Int.ofNat_inj.mp same
  · intro res isComing
    obtain ⟨i, within, isHere⟩ := List.mem_mapIdx.mp (arrive.mem_iff.mp isComing)
    refine ⟨i, Nat.zero_le i, ?_, ?_, ?_⟩
    · rw [← isHere]
    · rw [← isHere, List.getElem?_map, List.getElem?_eq_getElem within]
      rfl
    · rw [← isHere]
      exact steady _ (List.getElem_mem within)

/-- Read to its end the stream gives the array of the bodies in the order of the requests,
whatever the order in which they come, the pieces in which their readers give them and the
sizes of the buffers. -/
theorem array_of_responses {readers : List (Source UInt8)} (nonempty : readers ≠ [])
    (steady : ∀ reader ∈ readers, reader.Steady) {responses : List Response}
    (arrive : responses.Perm (inOrder readers)) {sizes : List ℕ}
    (positive : ∀ size ∈ sizes, 0 < size) :
    let expected := arrayOf (readers.map Source.rest)
    let read := drain (multiRead Part.read) sizes (arraySortingStream responses readers.length)
    read.1 <+: expected ∧ (read.2 ≠ none → read = (expected, some .eof)) ∧
      (expected.length < sizes.length → read = (expected, some .eof)) := by
  intro expected read
  have expects := expects_start steady arrive
  have remaining : (newSortingReader responses readers.length).remaining
      (readers.map Source.rest) =
        [jsonArraySep].intercalate (readers.map Source.rest) ++ [jsonArraySep] :=
    separated_eq_intercalate (by simpa using nonempty)
  have valid : ∀ part ∈ arraySortingStream responses readers.length,
      part.Valid (readers.map Source.rest) := by
    intro part isPart
    rcases List.mem_cons.mp isPart with rfl | isPart
    · trivial
    rcases List.mem_cons.mp isPart with rfl | isPart
    · exact ⟨expects, by rw [remaining]; simp⟩
    · rw [List.mem_singleton.mp isPart]
      trivial
  have content : (arraySortingStream responses readers.length).flatMap
      (Part.content (readers.map Source.rest)) = expected := by
    simp [arraySortingStream, Part.content, remaining, expected, arrayOf]
  have ends := (Part.delivers (readers.map Source.rest)).multiRead.drain positive valid
  rw [content] at ends
  rcases ends with whole | ⟨goesOn, isPrefix, long⟩
  · exact ⟨by rw [show read = _ from whole], fun _ => whole, fun _ => whole⟩
  · refine ⟨isPrefix, fun ended => absurd goesOn ended, fun many => ?_⟩
    have atMost := isPrefix.length_le
    exact absurd (Nat.lt_of_lt_of_le many long) (Nat.not_lt_of_le atMost)

theorem second_response_first :
    drain (multiRead Part.read) (List.replicate 7 2)
        (arraySortingStream (inOrder [⟨[97, 98], [1], false, .eof⟩, ⟨[99], [], true, .eof⟩]).reverse
          2) =
      (arrayOf [[97, 98], [99]], some .eof) :=
  (array_of_responses (List.cons_ne_nil _ _) (by decide) (List.reverse_perm _)
    (by decide)).2.2 (by decide)

end Nodecore.Server
