import Mathlib

/-! # Bounded channels

A channel keeps all that was sent on it and how much of that was taken. What was
sent and not taken never exceeds its capacity.
-/

universe u

structure Channel (ι : Type u) where
  capacity : Nat
  sent : List ι
  taken : Nat
  /-- The receiver is gone. -/
  closed : Bool
  taken_le : taken ≤ sent.length
  fits : sent.length - taken ≤ capacity
deriving DecidableEq

namespace Channel

inductive SendError where
  | closed
  | full
deriving DecidableEq

variable {ι : Type u} {channel next : Channel ι} {item : ι}

def new (capacity : Nat) : Channel ι :=
  { capacity, sent := [], taken := 0, closed := false, taken_le := by simp, fits := by simp }

/-- The slots that are left. -/
def free (channel : Channel ι) : Nat := channel.capacity - (channel.sent.length - channel.taken)

/-- A send that does not wait. -/
def trySend (channel : Channel ι) (item : ι) : Except SendError (Channel ι) :=
  if channel.closed then .error .closed
  else if hroom : channel.free = 0 then .error .full
  else
    .ok { channel with
      sent := channel.sent ++ [item]
      taken_le := by
        have := channel.taken_le
        simp only [List.length_append, List.length_singleton]
        omega
      fits := by
        have := channel.fits
        unfold free at hroom
        simp only [List.length_append, List.length_singleton]
        omega }

/-- The receiver takes the next item, if there is one. -/
def recv (channel : Channel ι) : Option (Channel ι) :=
  if hnext : channel.taken < channel.sent.length then
    some { channel with
      taken := channel.taken + 1
      taken_le := hnext
      fits := by
        have := channel.fits
        omega }
  else none

/-- The receiver is dropped, with what it had not taken. -/
def close (channel : Channel ι) : Channel ι :=
  { channel with
    taken := channel.sent.length, closed := true, taken_le := Nat.le_refl _, fits := by simp }

@[simp]
theorem free_new (capacity : Nat) : (new capacity : Channel ι).free = capacity := by
  simp [free, new]

theorem trySend_ok (hsend : channel.trySend item = .ok next) :
    next.sent = channel.sent ++ [item] ∧ next.closed = false ∧ channel.free = next.free + 1 := by
  unfold trySend at hsend
  split_ifs at hsend with hclosed hroom
  obtain rfl := Except.ok.inj hsend
  refine ⟨rfl, by simpa using hclosed, ?_⟩
  have := channel.taken_le
  unfold free at hroom ⊢
  simp only [List.length_append, List.length_singleton]
  omega

theorem open_of_trySend (hsend : channel.trySend item = .ok next) : channel.closed = false := by
  unfold trySend at hsend
  split_ifs at hsend with hclosed hroom
  simpa using hclosed

/-- A send on an open channel with a slot left succeeds. -/
theorem trySend_of_free (hopen : channel.closed = false) (hfree : 0 < channel.free) :
    ∃ next, channel.trySend item = .ok next := by
  unfold trySend
  rw [if_neg (by simp [hopen]), dif_neg (by omega)]
  exact ⟨_, rfl⟩

theorem trySend_error {error : SendError} (hsend : channel.trySend item = .error error) :
    (error = .closed ∧ channel.closed = true) ∨ (error = .full ∧ channel.free = 0) := by
  unfold trySend at hsend
  split_ifs at hsend with hclosed hroom
  · exact .inl ⟨(Except.error.inj hsend).symm, hclosed⟩
  · exact .inr ⟨(Except.error.inj hsend).symm, hroom⟩

theorem recv_some (hrecv : channel.recv = some next) :
    next.sent = channel.sent ∧ next.closed = channel.closed ∧ next.free = channel.free + 1 := by
  unfold recv at hrecv
  split_ifs at hrecv with hnext
  obtain rfl := Option.some.inj hrecv
  refine ⟨rfl, rfl, ?_⟩
  have := channel.fits
  unfold free
  simp only
  omega

@[simp]
theorem close_closed : channel.close.closed = true := rfl

theorem free_le_close : channel.free ≤ channel.close.free := by
  simp [free, close]

end Channel
