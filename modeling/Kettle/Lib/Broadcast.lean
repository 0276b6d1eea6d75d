/-
A broadcast channel that keeps its latest messages.  Each receiver has a
position in the sequence of all messages; one that has fallen behind the kept
ones is moved to the oldest of them.
-/
import Mathlib.Data.List.Basic

universe u

structure Broadcast (α : Type u) where
  capacity : Nat
  /-- All messages, of which the latest are kept. -/
  sent : List α

namespace Broadcast

inductive Received (α : Type u) where
  | empty
  | lagged (next : Nat)
  | message (value : α) (next : Nat)

variable {α : Type u}

def send (channel : Broadcast α) (value : α) : Broadcast α :=
  { channel with sent := channel.sent ++ [value] }

/-- A new receiver gets what is sent from now on. -/
def subscribe (channel : Broadcast α) : Nat := channel.sent.length

/-- How many messages a receiver has not seen. -/
def behind (channel : Broadcast α) (next : Nat) : Nat :=
  channel.sent.length - next

def recv (channel : Broadcast α) (next : Nat) : Received α :=
  if channel.capacity < channel.behind next then
    .lagged (channel.sent.length - channel.capacity)
  else
    match channel.sent[next]? with
    | some value => .message value (next + 1)
    | none => .empty

/-- What a receiver has gone past since its subscription. -/
def passed (channel : Broadcast α) (start next : Nat) : List α :=
  (channel.sent.take next).drop start

variable {channel : Broadcast α} {start next next' : Nat} {value : α}

theorem recv_message (hrecv : channel.recv next = .message value next') :
    channel.sent[next]? = some value ∧ next' = next + 1 ∧
      next < channel.sent.length := by
  unfold recv at hrecv
  split at hrecv
  · cases hrecv
  · split at hrecv
    · rename_i found hfound
      cases hrecv
      exact ⟨hfound, rfl, (List.getElem?_eq_some_iff.mp hfound).1⟩
    · cases hrecv

/-- A receiver that lags is moved on, but not past the latest message. -/
theorem recv_lagged (hpos : 0 < channel.capacity)
    (hrecv : channel.recv next = .lagged next') :
    channel.capacity < channel.behind next ∧ next < next' ∧
      next' < channel.sent.length := by
  unfold recv at hrecv
  split at hrecv
  · rename_i hlag
    cases hrecv
    unfold behind at hlag
    exact ⟨hlag, by omega, by omega⟩
  · split at hrecv <;> cases hrecv

/-- There is something to receive until the receiver has seen everything. -/
theorem recv_of_lt (hlt : next < channel.sent.length) :
    (∃ next', channel.recv next = .lagged next') ∨
      ∃ value next', channel.recv next = .message value next' := by
  unfold recv
  split
  · exact Or.inl ⟨_, rfl⟩
  · rw [List.getElem?_eq_getElem hlt]
    exact Or.inr ⟨_, _, rfl⟩

theorem passed_self : channel.passed start start = [] := by
  unfold passed
  exact List.drop_eq_nil_of_le (List.length_take_le _ _)

theorem passed_succ (hstart : start ≤ next)
    (hvalue : channel.sent[next]? = some value) :
    channel.passed start (next + 1) = channel.passed start next ++ [value] := by
  obtain ⟨hlt, hget⟩ := List.getElem?_eq_some_iff.mp hvalue
  unfold passed
  rw [List.take_succ_eq_append_getElem hlt, hget,
    List.drop_append_of_le_length]
  rw [List.length_take]
  omega

/-- Messages that are passed over are still there in order. -/
theorem passed_mono (hle : next ≤ next') :
    List.Sublist (channel.passed start next) (channel.passed start next') := by
  unfold passed
  rw [← Nat.min_eq_left hle, ← List.take_take]
  exact (List.take_sublist _ _).drop start

theorem passed_send (hnext : next ≤ channel.sent.length) :
    (channel.send value).passed start next = channel.passed start next := by
  unfold passed send
  rw [List.take_append_of_le_length hnext]

theorem passed_append_drop (hnext : start ≤ next)
    (hlen : next ≤ channel.sent.length) :
    channel.passed start next ++ channel.sent.drop next =
      channel.sent.drop start := by
  unfold passed
  conv_rhs => rw [← List.take_append_drop next channel.sent]
  rw [List.drop_append_of_le_length]
  rw [List.length_take]
  omega

end Broadcast
