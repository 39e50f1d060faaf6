import RedcodeIm.Database.System

/-!
# The backend as its clients meet it

A client that waits for each answer calls the backend one request at a time.

* `Server` — what is left between two calls.
* `Server.call` — one call.
* `Server.Settled.call` — a call leads from one reachable state to another.
-/

namespace RedcodeIm

open ReadCommitted

/-- The committed rows, the sequence and the clock. -/
structure Server where
  db : Db
  seq : ℕ
  now : Timestamp

/-- A bound on the statements of a call. -/
def Request.fuel : Request → ℕ
  | .changeMembership changes => changes.length + 1
  | .publishKeyPackages _ _ packages => packages.length + 8
  | _ => 16

/-- A call with no other in flight: what the client gets, and the server afterwards. -/
def Server.call (s : Server) (r : Request) : Except AppError Response × Server :=
  match e2eeBackend.solo r s.db s.now r.fuel s.seq r.start [] with
  | some ((db, seq), result) => (result, { s with db := db, seq := seq })
  | none => (.error .databaseError, s)

theorem Server.call_of_solo {s : Server} {r : Request} {db : Db} {seq : ℕ}
    {result : Except AppError Response}
    (h : e2eeBackend.solo r s.db s.now r.fuel s.seq r.start [] = some ((db, seq), result)) :
    s.call r = (result, { s with db := db, seq := seq }) := by
  simp only [Server.call, h]

/-- A state of the backend with no call in flight. -/
def Server.Settled (s : Server) : Prop :=
  ∃ st : Backend.State, Backend.Reachable st ∧ (∀ i, st.tx i = none) ∧ st.db = s.db ∧
    st.seq = s.seq ∧ st.now = s.now

/-- A call is a run of the backend. -/
theorem Server.Settled.call {s : Server} (h : s.Settled) (r : Request) : (s.call r).2.Settled := by
  obtain ⟨st, hr, hnone, hdb, hseq, hnow⟩ := h
  cases hs : e2eeBackend.solo r s.db s.now r.fuel s.seq r.start [] with
  | none =>
    simp only [Server.call, hs]
    exact ⟨st, hr, hnone, hdb, hseq, hnow⟩
  | some out =>
    obtain ⟨⟨db, seq⟩, result⟩ := out
    rw [Server.call_of_solo hs]
    let tx : Backend.Tx := Program.Tx.begin r st.past.length st.now
    have hpush : Program.step st (.begin r) = some (st.push tx) := rfl
    have htx : (st.push tx).tx st.txs.length = some tx := by
      rw [Program.State.tx_push, if_pos rfl]
    have halone : ∀ j, j ≠ st.txs.length → (st.push tx).tx j = none := by
      intro j hj
      rw [Program.State.tx_push, if_neg hj, hnone j]
    have hsolo : e2eeBackend.solo tx.req (st.push tx).toWorld.db tx.now r.fuel
        (st.push tx).toWorld.seq tx.loc tx.writes = some ((db, seq), result) := by
      rw [← hs, ← hdb, ← hseq, ← hnow]
      rfl
    obtain ⟨w', hserial, hdb', hseq', hnow'⟩ := Program.serial_of_solo hsolo
    obtain ⟨st', hreach, hworld, hnone'⟩ := Program.reach_of_serial htx halone hserial
    refine ⟨st', hr.reach ((Program.ReachUnder.refl.step trivial hpush).trans hreach), hnone', ?_⟩
    rw [show st'.db = st'.toWorld.db from rfl, show st'.seq = st'.toWorld.seq from rfl,
      show st'.now = st'.toWorld.now from rfl, hworld, hdb', hseq', hnow']
    exact ⟨rfl, rfl, hnow⟩

/-- Time passes between two calls. -/
def Server.tick (s : Server) (n : ℕ) : Server := { s with now := s.now + n }

theorem Server.Settled.tick {s : Server} (h : s.Settled) (n : ℕ) : (s.tick n).Settled := by
  obtain ⟨st, hr, hnone, hdb, hseq, hnow⟩ := h
  have hstep : Program.step st (.tick n) = some (st.tick n) := rfl
  refine ⟨st.tick n, hr.reach (Program.ReachUnder.refl.step trivial hstep), fun i => ?_, hdb, hseq,
    ?_⟩
  · rw [Program.State.tx_tick, hnone i]
  · rw [Server.tick, ← hnow]
    rfl

end RedcodeIm
