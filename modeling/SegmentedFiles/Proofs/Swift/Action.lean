import SegmentedFiles.Proofs.Interaction.Trace
import SegmentedFiles.Swift.Store

/-! # How actions of a session go

An action of a session begins in one session and ends in another (`SwiftAction.Goes`). The rules follow the notation
in which the actions are written. -/

namespace SegmentedFiles

open Interaction (Trace)

/-- Messages exchanged with HTTP servers. -/
abbrev HttpLog : Type := Interaction.Log HttpCall HttpReply

variable {α β : Type} {s t : SwiftSession} {log : HttpLog} {r : Except StoreError α}

namespace HttpAction

/-- Actions in a row: the first fails, or the second goes on. -/
theorem trace_bind_iff {x : HttpAction β} {f : β → HttpAction α} :
    Trace (x >>= f).run log r ↔
      (∃ e, Trace x.run log (.error e) ∧ r = .error e) ∨
        ∃ b first rest, log = first ++ rest ∧ Trace x.run first (.ok b) ∧ Trace (f b).run rest r := by
  refine Interaction.trace_bind_iff.trans ?_
  constructor
  · intro h
    obtain ⟨b, first, rest, rfl, hx, hf⟩ := h
    cases b with
    | ok b => exact .inr ⟨b, first, rest, rfl, hx, hf⟩
    | error e =>
      obtain ⟨rfl, rfl⟩ := Interaction.trace_done_iff.1 hf
      exact .inl ⟨e, by rwa [List.append_nil], rfl⟩
  · intro h
    rcases h with ⟨e, hx, rfl⟩ | ⟨b, first, rest, rfl, hx, hf⟩
    · exact ⟨.error e, log, [], (List.append_nil log).symm, hx, .done _⟩
    · exact ⟨.ok b, first, rest, rfl, hx, hf⟩

/-- A call is one message, unless it cannot be sent. -/
theorem trace_send_iff {call : HttpCall} {r : Except StoreError (Http.Response Payload)} :
    Trace call.send.run log r ↔
      call.isSendable = false ∧ log = [] ∧ r = .error (.http .badRequest) ∨
        call.isSendable = true ∧
          ∃ reply : HttpReply call.complete,
            log = [⟨call.complete, reply⟩] ∧ r = reply.mapError StoreError.http := by
  unfold HttpCall.send
  split
  · next h =>
    simp only [h, Bool.true_eq_false, false_and, true_and, false_or]
    refine Interaction.trace_ask_iff.trans (exists_congr fun reply => ?_)
    constructor
    · intro h
      obtain ⟨rest, rfl, hdone⟩ := h
      obtain ⟨rfl, rfl⟩ := Interaction.trace_done_iff.1 hdone
      exact ⟨rfl, rfl⟩
    · intro h
      obtain ⟨rfl, rfl⟩ := h
      exact ⟨[], rfl, .done _⟩
  · next h =>
    refine Interaction.trace_done_iff.trans ?_
    simp [eq_false_of_ne_true h, eq_comm]

/-- No messages are exchanged. -/
def Silent (x : HttpAction α) : Prop := ∀ log r, Trace x.run log r → log = []

theorem silent_except (x : Except StoreError α) : Silent (liftM x : HttpAction α) :=
  fun _ _ h => (Interaction.trace_done_iff.1 h).1

theorem silent_throw (e : StoreError) : Silent (throw e : HttpAction α) :=
  fun _ _ h => (Interaction.trace_done_iff.1 h).1

theorem Silent.bind {x : HttpAction β} {f : β → HttpAction α} (hx : Silent x)
    (hf : ∀ b, Silent (f b)) : Silent (x >>= f) := by
  intro log r h
  rcases trace_bind_iff.1 h with ⟨e, hx', -⟩ | ⟨b, first, rest, rfl, hx', hf'⟩
  · exact hx _ _ hx'
  · rw [hx _ _ hx', hf b _ _ hf', List.append_nil]

end HttpAction

namespace SwiftAction

/-- With these messages the action leads from session `s` to session `t` with a result or an error. -/
def Goes (x : SwiftAction α) (s : SwiftSession) (log : HttpLog) (r : Except StoreError α)
    (t : SwiftSession) : Prop :=
  Trace (x.run.run s) log (r, t)

theorem goes_pure_iff {a : α} : Goes (pure a) s log r t ↔ log = [] ∧ r = .ok a ∧ t = s := by
  refine Interaction.trace_done_iff.trans (and_congr_right fun _ => ?_)
  rw [Prod.mk.injEq, eq_comm, eq_comm (a := s)]

/-- A step without messages. -/
theorem goes_except_iff {x : Except StoreError α} :
    Goes (liftM x : SwiftAction α) s log r t ↔ log = [] ∧ r = x ∧ t = s := by
  refine Interaction.trace_done_iff.trans (and_congr_right fun _ => ?_)
  rw [Prod.mk.injEq, eq_comm, eq_comm (a := s)]
  exact Iff.rfl

theorem goes_get_iff {r : Except StoreError SwiftSession} :
    Goes get s log r t ↔ log = [] ∧ r = .ok s ∧ t = s := by
  refine Interaction.trace_done_iff.trans (and_congr_right fun _ => ?_)
  rw [Prod.mk.injEq, eq_comm, eq_comm (a := s)]

theorem goes_set_iff {u : SwiftSession} {r : Except StoreError PUnit} :
    Goes (set u) s log r t ↔ log = [] ∧ r = .ok ⟨⟩ ∧ t = u := by
  refine Interaction.trace_done_iff.trans (and_congr_right fun _ => ?_)
  rw [Prod.mk.injEq, eq_comm, eq_comm (a := u)]

/-- An exchange of messages by itself leaves the session as it is. -/
theorem goes_lift_iff {x : HttpAction α} :
    Goes (SwiftStore.lift x) s log r t ↔ Trace x.run log r ∧ t = s := by
  refine Interaction.trace_bind_iff.trans ?_
  constructor
  · intro h
    obtain ⟨a, first, rest, rfl, hx, hdone⟩ := h
    obtain ⟨rfl, hpair⟩ := Interaction.trace_done_iff.1 hdone
    obtain ⟨rfl, rfl⟩ := Prod.mk.inj hpair
    exact ⟨by rwa [List.append_nil], rfl⟩
  · intro h
    obtain ⟨hx, rfl⟩ := h
    exact ⟨r, log, [], (List.append_nil log).symm, hx, .done _⟩

/-- Actions in a row: the first fails, or the second goes on in the session in which it ends. -/
theorem goes_bind_iff {x : SwiftAction β} {f : β → SwiftAction α} :
    Goes (x >>= f) s log r t ↔
      (∃ e, Goes x s log (.error e) t ∧ r = .error e) ∨
        ∃ b u first rest, log = first ++ rest ∧ Goes x s first (.ok b) u ∧ Goes (f b) u rest r t := by
  refine Interaction.trace_bind_iff.trans ?_
  constructor
  · intro h
    obtain ⟨⟨b, u⟩, first, rest, rfl, hx, hf⟩ := h
    cases b with
    | ok b => exact .inr ⟨b, u, first, rest, rfl, hx, hf⟩
    | error e =>
      obtain ⟨rfl, hpair⟩ := Interaction.trace_done_iff.1 hf
      obtain ⟨rfl, rfl⟩ := Prod.mk.inj hpair
      exact .inl ⟨e, by rwa [List.append_nil], rfl⟩
  · intro h
    rcases h with ⟨e, hx, rfl⟩ | ⟨b, u, first, rest, rfl, hx, hf⟩
    · exact ⟨(.error e, t), log, [], (List.append_nil log).symm, hx, .done _⟩
    · exact ⟨(.ok b, u), first, rest, rfl, hx, hf⟩

end SwiftAction

end SegmentedFiles
