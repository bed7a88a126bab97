import TrafficGate.Filter.Basic
/-!
# Memberships

The filters attached to a project, as ids without repetition in the order
in which the server lists them. Adding puts an id at the end and removing
leaves the others in their order, so a list that is written back differs
from the one that was read by the one id only. Two memberships agree when
they hold the same ids, in whatever order.
-/

namespace TrafficGate

namespace Membership

/-- The members of a list in the order of their first occurrence. -/
def firsts : List String → List String
  | [] => []
  | x :: xs => x :: (firsts xs).filter (· ≠ x)

theorem mem_firsts {x : String} {xs : List String} : x ∈ firsts xs ↔ x ∈ xs := by
  induction xs with
  | nil => simp [firsts]
  | cons y ys ih =>
    by_cases h : x = y
    · simp [firsts, h]
    · simp [firsts, ih, h]

theorem nodup_firsts (xs : List String) : (firsts xs).Nodup := by
  induction xs with
  | nil => simp [firsts]
  | cons y ys ih => exact List.nodup_cons.2 ⟨by simp, List.Pairwise.filter _ ih⟩

end Membership

/-- Ids without repetition. -/
structure Membership where
  ids : List String
  nodup : ids.Nodup
  deriving DecidableEq, Repr

namespace Membership

instance : Inhabited Membership := ⟨⟨[], .nil⟩⟩

/-- The ids of a list, each once. -/
def ofIds (ids : List String) : Membership := ⟨firsts ids, nodup_firsts ids⟩

/-- The ids that a project lists; an absent list has none. -/
def ofFilters (filters : Option (List FilterRef)) : Membership :=
  ofIds ((filters.getD []).map FilterRef.id)

/-- The list that a project is to have. -/
def toFilters (m : Membership) : List FilterRef := m.ids.map FilterRef.mk

def contains (m : Membership) (id : String) : Bool := m.ids.contains id

/-- With an id added at the end, unless it is there. -/
def add? (m : Membership) (id : String) : Option Membership :=
  if h : id ∈ m.ids then none
  else
    some
      ⟨m.ids ++ [id], by
        refine List.nodup_append.2 ⟨m.nodup, by simp, ?_⟩
        intro a ha b hb hab
        rw [List.mem_singleton] at hb
        exact h (hb ▸ hab ▸ ha)⟩

/-- With an id taken out, if it is there. -/
def remove? (m : Membership) (id : String) : Option Membership :=
  if id ∈ m.ids then some ⟨m.ids.filter (· ≠ id), List.Pairwise.filter _ m.nodup⟩ else none

/-- Whether two memberships hold the same ids. -/
def agrees (m n : Membership) : Bool := m.ids.all n.contains && n.ids.all m.contains

/-- The ids as messages list them. -/
def wording (m : Membership) : String :=
  match m.ids with
  | [] => "(none)"
  | ids => ", ".intercalate ids

end Membership

end TrafficGate
