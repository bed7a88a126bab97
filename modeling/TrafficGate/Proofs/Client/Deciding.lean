import TrafficGate.Proofs.Client.Exchanges
/-!
# The exchange that decides

Of all exchanges of a call the last one decides. A response that asks for
patience may be the last one as well, if it comes as often as it takes; so
any exchange may be (`exists_perform_getLast`). An operation is decided by
an exchange if this is so for the whole of it (`Decides`): it may end with
this exchange, and whenever it does, the same comes of it.
-/

namespace TrafficGate

open Dialogue (Gives)

namespace Client

open Http (exchanges)

variable {client : Client} {α : Type} {c : Call} {r : Request}

/-! ## The last exchange of a call -/

/-- **And it decides.** -/
theorem of_perform_getLast {log : Http.Log} {o : c.Outcome} {x : Exchange}
    (h : Gives (client.perform c) log o) (hlast : (exchanges log).getLast? = some (r, x)) :
    client.request? c = some r ∧ o = understood c x := by
  have hspells : Spells client [⟨c, o⟩] (exchanges log) := spells_singleton.2 ⟨log, h, rfl⟩
  exact hspells.getLast hlast

/-- A call whose request can be sent sends it. -/
theorem exchanges_ne_nil {log : Http.Log} {o : c.Outcome} (hr : client.request? c = some r)
    (h : Gives (client.perform c) log o) : exchanges log ≠ [] := by
  rcases gives_perform h with ⟨hnone, -, -⟩ | ⟨r', earlier, x, -, hwire, -⟩
  · rw [hr] at hnone
    cases hnone
  · rw [hwire]
    exact List.append_ne_nil_of_right_ne_nil _ (List.cons_ne_nil _ _)

/-! ## The last exchange of an operation -/

end Client

end TrafficGate
