/-!
# Pieces of lists

Cutting a list into consecutive pieces of one length.
-/

namespace CallPlan

variable {α : Type}

/-- Pieces of a list: each has `more` elements besides its first one, only the last piece may have
fewer. -/
def pieces (more : Nat) : List α → List (List α)
  | [] => []
  | x :: xs => (x :: xs.take more) :: pieces more (xs.drop more)
termination_by xs => xs.length
decreasing_by
  simp only [List.length_drop, List.length_cons]
  omega

/-- Put together, the pieces are the list again. -/
theorem flatten_pieces (more : Nat) (xs : List α) : (pieces more xs).flatten = xs := by
  fun_induction pieces more xs with
  | case1 => rfl
  | case2 x xs ih => simp [ih]

/-- No piece is empty or too long. -/
theorem length_of_mem_pieces {more : Nat} {xs piece : List α} (h : piece ∈ pieces more xs) :
    0 < piece.length ∧ piece.length ≤ more + 1 := by
  fun_induction pieces more xs with
  | case1 => simp at h
  | case2 x xs ih =>
    rcases List.mem_cons.mp h with rfl | h
    · simp only [List.length_cons, List.length_take]
      omega
    · exact ih h

end CallPlan
