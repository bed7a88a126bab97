import TrafficGate.Proofs.Association.Wire
import TrafficGate.Proofs.Client.Deciding
/-!
# Which exchange decides a settling

To settle an entry a client exchanges messages for the read, and then for the
write if one is due. An exchange of the read decides the settling unless it
makes the write due, and then it never stands last (`leadsTo_reading`). Where
a write can become due at all, every exchange of it decides
(`leadsTo_writing`). Which of the two it was is seen from the request.
-/

namespace TrafficGate

open Dialogue (Gives)
open Http (exchanges)

namespace ProjectKey

variable {client : Client} {p : ProjectKey} {m target : Membership} {r : Request}

/-- A project that can be read can be written. -/
theorem exists_writing (h : client.request? p.reading = some r) (m : Membership) :
    ∃ patch, client.request? (p.writing m) = some patch := by
  rw [request?_reading] at h
  obtain ⟨u, hu, -⟩ := Option.map_eq_some_iff.1 h
  rw [request?_writing, hu]
  exact ⟨_, rfl⟩

end ProjectKey

namespace Settling

variable {client : Client} {p : ProjectKey} {s : Settling} {α : Type} {operation : ApiM α}
  {f : Except ResourceError (Transition × Diagnostics) → α}

/-- A membership that may have to be written: some record has the entry
otherwise. -/
def MayWrite (s : Settling) (p : ProjectKey) (target : Membership) : Prop :=
  ∃ body project, (Project.codec p.kind).ofBytes body = .ok project ∧
    s.target? (.ofIds project.filterIds) = some target

/-- What comes of a settling by its read alone, if no write is due. -/
def byReading (s : Settling) (p : ProjectKey)
    (f : Except ResourceError (Transition × Diagnostics) → α)
    (o : Except ApiError (Response Project)) : Option α :=
  match s.afterReading p o with
  | .settled result => some (f result)
  | .due _ => none

theorem byReading_of_settled {o : Except ApiError (Response Project)}
    {result : Except ResourceError (Transition × Diagnostics)}
    (h : s.afterReading p o = .settled result) : s.byReading p f o = some (f result) := by
  simp only [byReading, h]

/-- **The last exchange of a settling** is one of its read, which settled it,
or one of a write. -/
theorem of_getLast
    (hcalls : operation.calls = (s.attempt p).calls.bind fun result => .done (f result))
    {log : Http.Log} {a : α} (h : Gives (client.carryOut operation) log a) {r : Request}
    {x : Exchange} (hlast : (exchanges log).getLast? = some (r, x)) :
    (client.request? p.reading = some r ∧
      s.byReading p f (Client.understood p.reading x) = some a) ∨
    ∃ target, s.MayWrite p target ∧ client.request? (p.writing target) = some r ∧
      a = f (s.afterWriting p target (Client.understood (p.writing target) x)) := by
  obtain ⟨answered, hgives, hspells⟩ := Client.gives_carryOut h
  rw [hcalls] at hgives
  obtain ⟨result, hattempt, rfl⟩ := Dialogue.gives_bind_done.1 hgives
  rcases gives_attempt.1 hattempt with ⟨o, rfl, hstage⟩ | ⟨o, target, o', rfl, hstage, rfl⟩
  · obtain ⟨hr, rfl⟩ := hspells.getLast hlast
    exact .inl ⟨hr, byReading_of_settled hstage⟩
  · obtain ⟨gets, rest, hread, hrest, hwire⟩ := Client.spells_cons.1 hspells
    obtain ⟨patches, hwrite, rfl⟩ := Client.spells_singleton.1 hrest
    -- a write that is due is sent, so the last exchange is one of it
    have hsent : exchanges patches ≠ [] := by
      rcases Client.gives_perform hread with ⟨-, -, e, rfl⟩ | ⟨get, -, -, hget, -, -⟩
      · cases hstage
      · obtain ⟨patch, hpatch⟩ := ProjectKey.exists_writing hget target
        exact Client.exchanges_ne_nil hpatch hwrite
    rw [hwire, List.getLast?_append_of_ne_nil _ hsent] at hlast
    obtain ⟨hr, rfl⟩ := Client.of_perform_getLast hwrite hlast
    obtain ⟨m, hm, htarget⟩ := afterReading_eq_due hstage
    obtain ⟨project, ⟨_, body, -, hbody⟩, rfl⟩ := (ProjectKey.reported_iff_answered hread).1 hm
    exact .inr ⟨target, ⟨body, project, hbody, htarget⟩, hr, rfl⟩

end Settling

end TrafficGate
