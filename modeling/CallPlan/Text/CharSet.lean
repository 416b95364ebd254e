/-!
# Sets of characters

A set of characters is written down as the list of its maximal runs of code points, in ascending
order; this is how the properties of a character standard are tabulated. Membership walks the list
and stops at the first run that lies beyond the character.
-/

namespace CallPlan.Text

/-- Ascending runs of code points, each given by its first and its last member. -/
abbrev CharSet := List (Nat × Nat)

namespace CharSet

/-- Whether the code point `n` lies in one of the runs. -/
def hasCode : CharSet → Nat → Bool
  | [], _ => false
  | (first, last) :: rest, n => if n < first then false else n ≤ last || hasCode rest n

/-- Whether the character lies in one of the runs. -/
def contains (s : CharSet) (c : Char) : Bool :=
  s.hasCode c.toNat

/-- A member lies between the ends of some run. -/
theorem exists_run_of_hasCode {s : CharSet} {n : Nat} (h : s.hasCode n = true) :
    ∃ r ∈ s, r.1 ≤ n ∧ n ≤ r.2 := by
  induction s with
  | nil => simp [hasCode] at h
  | cons r rest ih =>
    obtain ⟨first, last⟩ := r
    simp only [hasCode] at h
    split at h
    · simp at h
    · rename_i hge
      rcases Bool.or_eq_true _ _ |>.mp h with hle | hrest
      · exact ⟨(first, last), by simp, by omega, by simpa using hle⟩
      · obtain ⟨r, hr, hb⟩ := ih hrest
        exact ⟨r, by simp [hr], hb⟩

end CharSet

end CallPlan.Text
