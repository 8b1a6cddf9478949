/-
# Several channels with one reader

Each channel keeps the order of what is sent through it; the reader takes from
any channel that has something and changes its state by what it took.  Where a
part of the state is changed by what comes through one channel only, what is
still in that channel tells how the part will look when it has been read.
-/

import Mathlib.Logic.Function.Basic

namespace Nodecore.Lib

variable {ι ε σ τ : Type*} [DecidableEq ι]

/-- What is in the channels, and the state of the reader. -/
structure FanIn (ι ε σ : Type*) where
  queues : ι → List ε
  state : σ

namespace FanIn

variable (feed : FanIn ι ε σ)

def send (channel : ι) (events : List ε) : FanIn ι ε σ :=
  { feed with queues := Function.update feed.queues channel (feed.queues channel ++ events) }

def receive (apply : σ → ε → σ) (channel : ι) : FanIn ι ε σ :=
  match feed.queues channel with
  | [] => feed
  | event :: rest =>
    { queues := Function.update feed.queues channel rest, state := apply feed.state event }

/-- Everything that was sent has been read. -/
def Settled : Prop := ∀ channel, feed.queues channel = []

section Queues

variable {apply : σ → ε → σ} {channel other : ι} {events : List ε} {event : ε}

theorem queues_send_of_ne (distinct : other ≠ channel) :
    (feed.send channel events).queues other = feed.queues other :=
  Function.update_of_ne distinct _ _

theorem queues_receive_of_ne (distinct : other ≠ channel) :
    (feed.receive apply channel).queues other = feed.queues other := by
  rw [receive]
  split
  · rfl
  · exact Function.update_of_ne distinct _ _

theorem mem_queues_send (queued : event ∈ (feed.send channel events).queues other) :
    event ∈ feed.queues other ∨ other = channel ∧ event ∈ events := by
  by_cases same : other = channel
  · subst same
    simp only [send, Function.update_self, List.mem_append] at queued
    exact queued.imp id fun sent => ⟨rfl, sent⟩
  · rw [queues_send_of_ne _ same] at queued
    exact .inl queued

theorem mem_queues_of_receive (queued : event ∈ (feed.receive apply channel).queues other) :
    event ∈ feed.queues other := by
  by_cases same : other = channel
  · subst same
    rw [receive] at queued
    split at queued
    · exact queued
    · rename_i first rest isQueue
      rw [isQueue]
      exact List.mem_cons_of_mem first (by simpa using queued)
  · rwa [queues_receive_of_ne _ same] at queued

end Queues

section Pending

variable (act : τ → ε → τ) (view : σ → τ) (channel : ι)

/-- A part of the state as it will be when the channel has been read. -/
def pending : τ := (feed.queues channel).foldl act (view feed.state)

theorem pending_send (events : List ε) :
    (feed.send channel events).pending act view channel =
      events.foldl act (feed.pending act view channel) := by
  simp [pending, send]

theorem pending_send_of_ne {other : ι} (distinct : channel ≠ other) (events : List ε) :
    (feed.send other events).pending act view channel = feed.pending act view channel := by
  simp only [pending, send, Function.update_of_ne distinct]

variable {act view} {apply : σ → ε → σ}

theorem pending_receive (acts : ∀ state event, view (apply state event) = act (view state) event) :
    (feed.receive apply channel).pending act view channel = feed.pending act view channel := by
  rw [receive]
  split
  · rfl
  · rename_i first rest isQueue
    simp [pending, isQueue, acts]

theorem pending_receive_of_ne {other : ι} (distinct : channel ≠ other)
    (acts : ∀ state event, view (apply state event) = act (view state) event)
    (ignored : ∀ event ∈ feed.queues other, ∀ value, act value event = value) :
    (feed.receive apply other).pending act view channel = feed.pending act view channel := by
  rw [receive]
  split
  · rfl
  · rename_i first rest isQueue
    have kept := ignored first (isQueue ▸ List.mem_cons_self)
    simp only [pending, Function.update_of_ne distinct, acts, kept]

end Pending

end FanIn

end Nodecore.Lib
