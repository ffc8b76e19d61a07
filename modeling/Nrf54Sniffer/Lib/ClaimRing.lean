/-
Nrf54Sniffer.Lib.ClaimRing — a bounded FIFO read in two steps, claim and finish.

A consumer claims some of the oldest elements, works on them in place and then
finishes: the ones it is done with are released and the others go back to the
front, to be claimed again. A producer puts at the other end, as much as fits.
Claimed elements still take room until they are finished.

The capacity bound is a field. `content` is everything held, in order, and the
lemmas say what each operation does to it: a claim nothing, a finish drops what
it releases, a put that fits appends.
-/

namespace Nrf54Sniffer.Lib

/-- At most `cap` elements: the ones claimed, then the ones behind them. -/
structure ClaimRing (α : Type) (cap : Nat) where
  claimed : List α
  queued : List α
  size_le : claimed.length + queued.length ≤ cap

namespace ClaimRing

variable {α : Type} {cap : Nat}

def empty : ClaimRing α cap := ⟨[], [], Nat.zero_le _⟩

/-- Everything held, oldest first. -/
def content (r : ClaimRing α cap) : List α := r.claimed ++ r.queued

/-- The room left: claimed elements still take theirs. -/
def space (r : ClaimRing α cap) : Nat := cap - (r.claimed.length + r.queued.length)

/-- The elements that can still be claimed. -/
def size (r : ClaimRing α cap) : Nat := r.queued.length

/-- Puts as many elements as fit. -/
def put (r : ClaimRing α cap) (xs : List α) : ClaimRing α cap where
  claimed := r.claimed
  queued := r.queued ++ xs.take r.space
  size_le := by
    have := r.size_le
    simp only [space, List.length_append, List.length_take]
    omega

/-- Claims the next `n` elements. -/
def claim (r : ClaimRing α cap) (n : Nat) : ClaimRing α cap where
  claimed := r.claimed ++ r.queued.take n
  queued := r.queued.drop n
  size_le := by
    have := r.size_le
    simp only [List.length_append, List.length_take, List.length_drop]
    omega

/-- Releases the first `n` claimed elements and returns the others. -/
def finish (r : ClaimRing α cap) (n : Nat) : ClaimRing α cap where
  claimed := []
  queued := r.claimed.drop n ++ r.queued
  size_le := by
    have := r.size_le
    simp only [List.length_nil, List.length_append, List.length_drop]
    omega

@[simp] theorem claim_content (r : ClaimRing α cap) (n : Nat) :
    (r.claim n).content = r.content := by
  simp [content, claim]

theorem finish_content (r : ClaimRing α cap) {n : Nat} (h : n ≤ r.claimed.length) :
    (r.finish n).content = r.content.drop n := by
  simp only [content, finish, List.nil_append]
  rw [List.drop_append_of_le_length h]

/-- With everything claimed released, what was queued is left. -/
theorem finish_all_content (r : ClaimRing α cap) :
    (r.finish r.claimed.length).content = r.queued := by
  rw [r.finish_content (Nat.le_refl _), content, List.drop_left]

theorem put_queued (r : ClaimRing α cap) {xs : List α} (h : xs.length ≤ r.space) :
    (r.put xs).queued = r.queued ++ xs := by
  show r.queued ++ xs.take r.space = r.queued ++ xs
  rw [List.take_of_length_le h]

/-- A put that fits adds its elements behind everything held. -/
theorem put_content (r : ClaimRing α cap) {xs : List α} (h : xs.length ≤ r.space) :
    (r.put xs).content = r.content ++ xs := by
  show r.claimed ++ (r.put xs).queued = r.claimed ++ r.queued ++ xs
  rw [r.put_queued h, List.append_assoc]

/-- What is held and the room left are the capacity. -/
theorem content_add_space (r : ClaimRing α cap) : r.content.length + r.space = cap := by
  have := r.size_le
  simp only [content, space, List.length_append]
  omega

/-- Finishing adds nothing. -/
theorem finish_length_le (r : ClaimRing α cap) (n : Nat) :
    (r.finish n).content.length ≤ r.content.length := by
  simp only [content, finish, List.length_append, List.length_nil, List.length_drop]
  omega

@[simp] theorem claim_space (r : ClaimRing α cap) (n : Nat) : (r.claim n).space = r.space := by
  simp only [space, claim, List.length_append, List.length_take, List.length_drop]
  omega

/-- Finishing only makes room. -/
theorem space_le_finish (r : ClaimRing α cap) (n : Nat) : r.space ≤ (r.finish n).space := by
  simp only [space, finish, List.length_nil, List.length_append, List.length_drop]
  omega

end ClaimRing

end Nrf54Sniffer.Lib
