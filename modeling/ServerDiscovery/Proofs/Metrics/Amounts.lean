import Mathlib.Algebra.BigOperators.Group.Finset.Piecewise
import Mathlib.Data.UInt
import ServerDiscovery.Metrics

/-! # What counting adds up to

A step of counting adds to one counter, whatever its value is.  So what a sequence of steps does to
a counter is a sum (`amounts`), and neither the order of the steps nor what else is counted in
between is of any account.  Sums are taken of 64-bit numbers, which wrap; `wrapped` takes a natural
number to the number that a counter shows of it, and keeps sums.
-/

namespace ServerDiscovery

/-- The names of the counters. -/
inductive Counter where
  | exchangesTotal
  | exchangesSuccess
  | exchangesTimedOut
  | exchangesFailed
  | datagramsSent
  | datagramsReceived
  | bytesSent
  | bytesReceived
  | mismatchedResponses
  | masterServersAnswered
  | serversDiscovered
deriving DecidableEq, Repr

/-- The value of a counter. -/
def Metrics.read (m : Metrics) : Counter → UInt64
  | .exchangesTotal => m.exchangesTotal
  | .exchangesSuccess => m.exchangesSuccess
  | .exchangesTimedOut => m.exchangesTimedOut
  | .exchangesFailed => m.exchangesFailed
  | .datagramsSent => m.datagramsSent
  | .datagramsReceived => m.datagramsReceived
  | .bytesSent => m.bytesSent
  | .bytesReceived => m.bytesReceived
  | .mismatchedResponses => m.mismatchedResponses
  | .masterServersAnswered => m.masterServersAnswered
  | .serversDiscovered => m.serversDiscovered

/-- What a step adds to a counter. -/
def Count.amount : Count → Counter → UInt64
  | .exchangeStarted, .exchangesTotal => 1
  | .exchangeSucceeded, .exchangesSuccess => 1
  | .exchangeTimedOut, .exchangesTimedOut => 1
  | .exchangeFailed, .exchangesFailed => 1
  | .datagramSent, .datagramsSent => 1
  | .datagramReceived, .datagramsReceived => 1
  | .bytesSent size, .bytesSent => size
  | .bytesReceived size, .bytesReceived => size
  | .responseMismatched, .mismatchedResponses => 1
  | .masterServerAnswered, .masterServersAnswered => 1
  | .serverDiscovered, .serversDiscovered => 1
  | _, _ => 0

/-- What several steps add to a counter. -/
def amounts (counter : Counter) (counts : List Count) : UInt64 :=
  (counts.map (Count.amount · counter)).sum

section Amounts

variable (m : Metrics) (counter : Counter) (c : Count) (counts others : List Count)

theorem Metrics.read_add : (m.add c).read counter = m.read counter + c.amount counter := by
  cases c <;> cases counter <;> first | rfl | exact (add_zero _).symm

@[simp] theorem amounts_nil : amounts counter [] = 0 := rfl

@[simp] theorem amounts_cons :
    amounts counter (c :: counts) = c.amount counter + amounts counter counts := by
  rw [amounts, List.map_cons, List.sum_cons, amounts]

@[simp] theorem amounts_append :
    amounts counter (counts ++ others) = amounts counter counts + amounts counter others := by
  rw [amounts, List.map_append, List.sum_append, amounts, amounts]

/-- Steps add their amounts to every counter. -/
theorem Metrics.read_addAll :
    (m.addAll counts).read counter = m.read counter + amounts counter counts := by
  induction counts generalizing m with
  | nil => simp [Metrics.addAll]
  | cons c counts ih =>
    have hrest : m.addAll (c :: counts) = (m.add c).addAll counts := rfl
    rw [hrest, ih, Metrics.read_add, amounts_cons, add_assoc]

variable {counter counts} in
/-- Steps that add nothing one by one add nothing together. -/
theorem amounts_eq_zero (h : ∀ c ∈ counts, c.amount counter = 0) : amounts counter counts = 0 := by
  refine List.sum_eq_zero fun amount hamount => ?_
  obtain ⟨c, hc, rfl⟩ := List.mem_map.mp hamount
  exact h c hc

end Amounts

/-! ## Numbers that wrap -/

/-- What a counter shows of a number. -/
def wrapped : ℕ →+ UInt64 where
  toFun := UInt64.ofNat
  map_zero' := rfl
  map_add' := UInt64.ofNat_add

@[simp] theorem wrapped_apply (n : ℕ) : wrapped n = UInt64.ofNat n := rfl

/-- A datagram that was sent counts once, and by its size. -/
theorem amounts_sent (size : ℕ) :
    amounts .datagramsSent (Count.sent size) = wrapped 1 ∧
      amounts .bytesSent (Count.sent size) = wrapped size :=
  ⟨rfl, (zero_add _).trans (add_zero _)⟩

/-- A datagram that was received counts by its size. -/
theorem amounts_received (size : ℕ) : amounts .bytesReceived (Count.received size) = wrapped size :=
  (zero_add _).trans (add_zero _)

/-! ## Several parties -/

/-- A sum grows by what one of its summands grows by. -/
theorem sum_update_add {n : ℕ} {M : Type*} [AddCommMonoid M] (f : Fin n → M) (i : Fin n) (c : M) :
    ∑ j, Function.update f i (f i + c) j = ∑ j, f j + c := by
  rw [Finset.sum_update_of_mem (Finset.mem_univ i),
    Finset.sum_eq_add_sum_sdiff_singleton_of_mem (Finset.mem_univ i) f, add_right_comm]

/-- One more party has done its part. -/
theorem update_ite_insert {n : ℕ} {α : Type*} (part : Fin n → α) (nothing : α)
    (done : Finset (Fin n)) (i : Fin n) :
    Function.update (fun j => if j ∈ done then part j else nothing) i (part i) =
      fun j => if j ∈ insert i done then part j else nothing := by
  funext j
  by_cases hj : j = i
  · subst hj
    simp
  · simp [hj]

end ServerDiscovery
