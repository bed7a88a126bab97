import TrafficGate.Url.Parse
import Mathlib.Data.Option.Basic
/-!
# Endpoints

The address of a server is a URL under `http` or `https` that was read from
a text. Whatever else it holds, it has a host and a path of segments
(`IsEndpoint.isBase`), so segments can be added to it.
-/

namespace TrafficGate

namespace Url

/-- A URL that requests can be sent to, as settings give it. -/
structure IsEndpoint (u : Url) : Prop where
  scheme : u.scheme = "http" ∨ u.scheme = "https"
  exists_text : ∃ text, ofString? text = some u

/-- A URL with a host and a path of segments. -/
structure IsBase (u : Url) : Prop where
  host : ∃ host, u.host = some host
  path : ∃ segs, u.path = .segments segs

variable {scheme : String} {cs : List Char} {u : Url}

/-- Under every scheme a path is read as segments. -/
theorem exists_pathOf (scheme : String) (cs : List Char) :
    ∃ segs, pathOf scheme cs = .segments segs := by
  cases cs with
  | nil => exact ⟨_, rfl⟩
  | cons c rest => exact ⟨_, rfl⟩

/-- **What is read behind two slashes is a base** of its scheme. -/
theorem isBase_of_withAuthority (h : withAuthority? scheme cs = some u) :
    u.scheme = scheme ∧ u.IsBase := by
  unfold withAuthority? at h
  dsimp only at h
  split at h
  · -- an empty host stands where the scheme is not special
    split at h
    · cases h
    · obtain rfl := Option.some.inj h
      exact ⟨rfl, ⟨_, rfl⟩, exists_pathOf _ _⟩
  · split at h
    all_goals
      obtain ⟨host, -, h⟩ := Option.bind_eq_some_iff.1 h
      obtain ⟨port, -, h⟩ := Option.bind_eq_some_iff.1 h
      obtain rfl := Option.some.inj h
      exact ⟨rfl, ⟨_, rfl⟩, exists_pathOf _ _⟩

theorem scheme_of_ofFile (h : ofFile? cs = some u) : u.scheme = "file" := by
  unfold ofFile? at h
  dsimp only at h
  split at h
  · split at h
    · split at h
      · obtain rfl := Option.some.inj h
        rfl
      · split at h
        · obtain rfl := Option.some.inj h
          rfl
        · obtain ⟨host, -, h⟩ := Option.bind_eq_some_iff.1 h
          obtain rfl := Option.some.inj h
          rfl
    · obtain rfl := Option.some.inj h
      rfl
  · obtain rfl := Option.some.inj h
    rfl

theorem scheme_of_ofForeign (h : ofForeign? scheme cs = some u) : u.scheme = scheme := by
  unfold ofForeign? at h
  split at h
  · exact (isBase_of_withAuthority h).1
  · obtain rfl := Option.some.inj h
    rfl

/-- **An endpoint is a base**: of the three ways to read a URL only one ends
with its scheme. -/
theorem IsEndpoint.isBase (h : u.IsEndpoint) : u.IsBase := by
  obtain ⟨text, htext⟩ := h.exists_text
  have hspecial : isSpecial u.scheme = true := by
    rcases h.scheme with hs | hs <;> rw [hs] <;> rfl
  have hfile : u.scheme ≠ "file" := by
    rcases h.scheme with hs | hs <;> rw [hs] <;> decide
  obtain ⟨⟨scheme, rest⟩, -, hrest⟩ := Option.bind_eq_some_iff.1 htext
  dsimp only at hrest
  split at hrest
  · exact absurd (scheme_of_ofFile hrest) hfile
  split at hrest
  · exact (isBase_of_withAuthority hrest).2
  · rename_i hforeign
    rw [scheme_of_ofForeign hrest] at hspecial
    exact absurd hspecial hforeign

end Url

end TrafficGate
