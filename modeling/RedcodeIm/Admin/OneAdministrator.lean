import RedcodeIm.Admin.Bootstrap
import RedcodeIm.Database.Uuids

/-!
# One bootstrap administrator

The count that guards `bootstrap_admin` reads committed rows only, so two transactions may both
find none and both create one.  Where each counts while no other one has counted, at most one
administrator is committed.

* `CountsAlone` — the condition.
* `BootstrapNext`, `bootstrap_next` — all that a statement of the handler can do.
* `BootstrapInv` — what holds in every run under the condition.
* `bootstrap_once` — so there is one administrator.
-/

namespace RedcodeIm

open ReadCommitted (Program Outcome View Action)
open List

namespace Bootstrap

variable {env : BootstrapEnv}

abbrev State (env : BootstrapEnv) : Type := (bootstraps env).State

abbrev Tx (env : BootstrapEnv) : Type := (bootstraps env).Tx

/-- How many requests have committed their administrator. -/
def commits (s : State env) : ℕ := s.hist.countP fun f => f.result.isOk

/-- The transaction has counted the administrators, and goes on. -/
def counted : BootstrapStage → Bool
  | .refused _ | .count => false
  | _ => true

/-- The transaction has inserted its administrator. -/
def inserted : BootstrapStage → Bool
  | .role _ | .assign _ _ | .commit _ => true
  | _ => false

/-- **The condition**: a transaction counts while no other one that has counted is open. -/
def CountsAlone (s : State env) (a : Action AdminBootstrapInitRequest) : Prop :=
  ∀ i tx, a = .stmt i → s.tx i = some tx → tx.loc = .count →
    ∀ j u, j ≠ i → s.tx j = some u → counted u.loc = false

/-! ## What a statement does -/

/-- All that a statement which goes on can do. -/
inductive BootstrapNext (v : View AdminDb AdminKey) : BootstrapStage → BootstrapStage →
    List AdminWrite → Prop where
  | count (hnone : v.db.activeAdmins = 0) : BootstrapNext v .count .username []
  | username : BootstrapNext v .username .insert []
  | insert (a : AdminUser) (hactive : a.deletedAt = none) :
      BootstrapNext v .insert (.role a.id) [.insertAdmin a]
  | role (adminId roleId : Uuid) : BootstrapNext v (.role adminId) (.assign adminId roleId) []
  | assign (adminId roleId : Uuid) (r : AdminUserRole) :
      BootstrapNext v (.assign adminId roleId) (.commit adminId) [.insertAdminRole r]

section

variable {r : AdminBootstrapInitRequest} {v : View AdminDb AdminKey} {stage stage' : BootstrapStage}
  {ls : Locks AdminKey} {ws : List AdminWrite} {n : ℕ}

/-- An administrator is created, not deleted. -/
theorem deletedAt_row {hash : String} {now : Timestamp} {a : AdminUser}
    (h : r.row env hash now = some a) : a.deletedAt = none := by
  obtain ⟨-, -, h⟩ := Option.bind_eq_some_iff.1 h
  obtain ⟨username, -, h⟩ := Option.bind_eq_some_iff.1 h
  obtain ⟨email, -, h⟩ := Option.bind_eq_some_iff.1 h
  obtain ⟨hash, -, h⟩ := Option.bind_eq_some_iff.1 h
  obtain ⟨nickname, -, h⟩ := Option.bind_eq_some_iff.1 h
  cases h
  rfl

theorem bootstrap_next (h : bootstrapAdmin env r v stage = .next stage' ls ws n) :
    BootstrapNext v stage stage' ws := by
  cases stage with
  | refused | commit => cases h
  | count =>
    simp only [bootstrapAdmin] at h
    split at h
    · cases h
    · rename_i hcount
      cases h
      exact .count (Nat.eq_zero_of_not_pos hcount)
  | username =>
    simp only [bootstrapAdmin] at h
    split at h <;> cases h
    exact .username
  | insert =>
    simp only [bootstrapAdmin] at h
    split at h
    · cases h
    · split at h
      · cases h
      · rename_i hrow
        split at h <;> cases h
        exact .insert _ (deletedAt_row hrow)
  | role adminId =>
    simp only [bootstrapAdmin] at h
    split at h <;> cases h
    exact .role _ _
  | assign adminId roleId =>
    simp only [bootstrapAdmin] at h
    split at h <;> cases h
    exact .assign _ _ _

theorem bootstrap_commit {out : Uuid} (h : bootstrapAdmin env r v stage = .commit out) :
    stage = .commit out := by
  cases stage with
  | refused err => cases h
  | insert =>
    simp only [bootstrapAdmin] at h
    split at h
    · cases h
    · split at h
      · cases h
      · split at h <;> cases h
  | commit adminId =>
    cases h
    rfl
  | _ =>
    simp only [bootstrapAdmin] at h
    split at h <;> cases h

end

/-! ## What the writes do -/

/-- The writes insert no administrator that is deleted. -/
def Active (ws : List AdminWrite) : Prop :=
  ∀ a, .insertAdmin a ∈ ws → a.deletedAt = none

variable {db : AdminDb}

theorem activeAdmins_pos : 0 < db.activeAdmins ↔ ∃ a ∈ db.admins.rows, a.deletedAt = none := by
  simp [AdminDb.activeAdmins, countP_pos_iff]

theorem activeAdmins_apply {w : AdminWrite} (hw : Active [w])
    (h : 0 < db.activeAdmins ∨ ∃ a, w = .insertAdmin a) : 0 < (db.apply w).activeAdmins := by
  cases w with
  | insertAdmin a =>
    exact activeAdmins_pos.2 ⟨a, Table.mem_put_self _ _, hw a mem_cons_self⟩
  | insertAdminRole r =>
    rcases h with h | ⟨a, h⟩
    · exact h
    · cases h

variable {ws : List AdminWrite}

/-- There is an administrator after the writes if there was one, or they insert one. -/
theorem activeAdmins_applyAll (hws : Active ws)
    (h : 0 < db.activeAdmins ∨ ∃ a, .insertAdmin a ∈ ws) :
    0 < ((bootstraps env).applyAll db ws).activeAdmins := by
  induction ws generalizing db with
  | nil =>
    rcases h with h | ⟨a, h⟩
    · exact h
    · cases h
  | cons w ws ih =>
    have hw : Active [w] := fun a ha => hws a (mem_cons.2 (.inl (mem_singleton.1 ha)))
    refine ih (fun a ha => hws a (mem_cons_of_mem _ ha)) ?_
    rcases h with h | ⟨a, ha⟩
    · exact .inl (activeAdmins_apply hw (.inl h))
    · rcases mem_cons.1 ha with rfl | ha
      · exact .inl (activeAdmins_apply hw (.inr ⟨a, rfl⟩))
      · exact .inr ⟨a, ha⟩

/-! ## What holds in every run -/

/-- What holds of a transaction. -/
structure TxInOrder (tx : Tx env) : Prop where
  clean : inserted tx.loc = false → tx.writes = []
  active : Active tx.writes
  created : inserted tx.loc = true → ∃ a, .insertAdmin a ∈ tx.writes

/-- **The invariant**: one transaction at most has counted, and as long as it is open there is no
administrator; and what is committed stays. -/
structure BootstrapInv (s : State env) : Prop where
  inOrder : ∀ i tx, s.tx i = some tx → TxInOrder tx
  alone : ∀ i j tx u, s.tx i = some tx → s.tx j = some u → counted tx.loc = true →
    counted u.loc = true → i = j
  empty : ∀ i tx, s.tx i = some tx → counted tx.loc = true → s.db.activeAdmins = 0
  kept : 0 < commits s → 0 < s.db.activeAdmins
  once : commits s ≤ 1

variable (r : AdminBootstrapInitRequest)

theorem txInOrder_begin (born now : ℕ) :
    TxInOrder (Program.Tx.begin (P := bootstraps env) r born now) := by
  have hinserted : inserted r.start = false := by
    unfold AdminBootstrapInitRequest.start
    split <;> rfl
  refine ⟨fun _ => rfl, fun a ha => ?_, fun h => ?_⟩
  · cases ha
  · exact absurd (hinserted.symm.trans h) Bool.false_ne_true

theorem counted_start : counted r.start = false := by
  unfold AdminBootstrapInitRequest.start
  split <;> rfl

variable {tx : Tx env} {v : View AdminDb AdminKey} {stage' : BootstrapStage} {ls : Locks AdminKey}

theorem TxInOrder.advance (h : TxInOrder tx) (hnext : BootstrapNext v tx.loc stage' ws) :
    TxInOrder (tx.advance stage' ls ws) := by
  obtain ⟨req, now, born, loc, locks, writes, covered⟩ := tx
  obtain ⟨hclean, hactive, hcreated⟩ := h
  change BootstrapNext v loc stage' ws at hnext
  cases hnext with
  | count | username =>
    have hwrites : writes = [] := hclean rfl
    subst hwrites
    refine ⟨fun _ => rfl, fun a ha => ?_, fun hins => ?_⟩
    · cases ha
    · cases hins
  | insert a ha =>
    have hwrites : writes = [] := hclean rfl
    subst hwrites
    refine ⟨fun hins => ?_, fun b hb => ?_, fun _ => ⟨a, mem_cons_self⟩⟩
    · cases hins
    · obtain rfl := AdminWrite.insertAdmin.inj (mem_singleton.1 hb)
      exact ha
  | role adminId roleId =>
    obtain ⟨a, ha⟩ := hcreated rfl
    refine ⟨fun hins => ?_, fun b hb => ?_, fun _ => ⟨a, mem_append_left _ ha⟩⟩
    · cases hins
    · exact hactive b ((mem_append.1 hb).resolve_right not_mem_nil)
  | assign adminId roleId r =>
    obtain ⟨a, ha⟩ := hcreated rfl
    refine ⟨fun hins => ?_, fun b hb => ?_, fun _ => ⟨a, mem_append_left _ ha⟩⟩
    · cases hins
    · rcases mem_append.1 hb with hb | hb
      · exact hactive b hb
      · cases mem_singleton.1 hb

variable {s : State env} {locked : AdminKey → LockMode → Bool}

theorem next_of_stmt {loc : BootstrapStage} {n : ℕ}
    (h : tx.stmt s.toWorld locked = .next loc ls ws n) :
    BootstrapNext ⟨tx.see s.db, s.seq, tx.now, locked⟩ tx.loc loc ws := by
  have hs : bootstrapAdmin env tx.req ⟨tx.see s.db, s.seq, tx.now, locked⟩ tx.loc =
    .next loc ls ws n := h
  exact bootstrap_next hs

theorem commit_of_stmt {out : Uuid} (h : tx.stmt s.toWorld locked = .commit out) :
    tx.loc = .commit out := by
  have hs : bootstrapAdmin env tx.req ⟨tx.see s.db, s.seq, tx.now, locked⟩ tx.loc =
    .commit out := h
  exact bootstrap_commit hs

theorem counted_of_next {stage : BootstrapStage} (h : BootstrapNext v stage stage' ws) :
    counted stage = true ∨ (stage = .count ∧ v.db.activeAdmins = 0) := by
  cases h with
  | count hnone => exact .inr ⟨rfl, hnone⟩
  | _ => exact .inl rfl

/-- A transaction ends without a commit. -/
theorem BootstrapInv.drop {i : ℕ} (h : BootstrapInv s) (htx : s.tx i = some tx)
    {w : ReadCommitted.World AdminDb AdminWrite AdminBootstrapInitRequest
      AppError Uuid} (hdb : w.db = s.db)
    (hhist : (w.hist.countP fun f => f.result.isOk) = commits s) :
    BootstrapInv (s.set w i none) := by
  have hold : ∀ j u, (s.set w i none).tx j = some u → s.tx j = some u := by
    intro j u hu
    rw [Program.State.tx_set htx] at hu
    by_cases hj : j = i
    · rw [if_pos hj] at hu
      cases hu
    · rwa [if_neg hj] at hu
  have hcommits : commits (s.set w i none) = commits s := hhist
  refine ⟨fun j u hu => h.inOrder j u (hold j u hu), fun j k u u' hu hu' =>
    h.alone j k u u' (hold j u hu) (hold k u' hu'), fun j u hu hc => ?_, fun hpos => ?_, ?_⟩
  · rw [Program.State.toWorld_set, hdb]
    exact h.empty j u (hold j u hu) hc
  · rw [Program.State.toWorld_set, hdb]
    exact h.kept (hcommits ▸ hpos)
  · rw [hcommits]
    exact h.once

/-- A transaction goes on. -/
theorem BootstrapInv.advance {i : ℕ} {loc : BootstrapStage} {n : ℕ} (h : BootstrapInv s)
    (hok : CountsAlone s (.stmt i)) (htx : s.tx i = some tx)
    (hs : tx.stmt s.toWorld (s.locked i) = .next loc ls ws n) :
    BootstrapInv (s.set (s.toWorld.draw n) i (some (tx.advance loc ls ws))) := by
  have hnext := next_of_stmt hs
  have hin := h.inOrder i tx htx
  -- The statement that counts sees what is committed, for nothing has been written yet.
  have hsafe : (∀ j u, j ≠ i → s.tx j = some u → counted u.loc = false) ∧
      s.db.activeAdmins = 0 := by
    rcases counted_of_next hnext with hc | ⟨hloc, hnone⟩
    · refine ⟨fun j u hj hu => ?_, h.empty i tx htx hc⟩
      by_contra hcu
      exact hj (h.alone j i u tx hu htx (Bool.not_eq_false _ ▸ hcu) hc)
    · refine ⟨hok i tx rfl htx hloc, ?_⟩
      have hwrites := hin.clean (by rw [hloc]; rfl)
      rwa [Program.Tx.see, hwrites, Program.applyAll_nil] at hnone
  have hcases : ∀ j u, (s.set (s.toWorld.draw n) i (some (tx.advance loc ls ws))).tx j = some u →
      (j = i ∧ u = tx.advance loc ls ws) ∨ (j ≠ i ∧ s.tx j = some u) := by
    intro j u hu
    rw [Program.State.tx_set htx] at hu
    by_cases hj : j = i
    · rw [if_pos hj] at hu
      exact .inl ⟨hj, (Option.some.inj hu).symm⟩
    · rw [if_neg hj] at hu
      exact .inr ⟨hj, hu⟩
  have honly : ∀ j u, (s.set (s.toWorld.draw n) i (some (tx.advance loc ls ws))).tx j = some u →
      counted u.loc = true → j = i := by
    intro j u hu hc
    rcases hcases j u hu with ⟨hj, -⟩ | ⟨hj, hu⟩
    · exact hj
    · rw [hsafe.1 j u hj hu] at hc
      cases hc
  refine ⟨fun j u hu => ?_, fun j k u u' hu hu' hc hc' =>
    (honly j u hu hc).trans (honly k u' hu' hc').symm, fun _ _ _ _ => hsafe.2, h.kept, h.once⟩
  rcases hcases j u hu with ⟨-, rfl⟩ | ⟨-, hu⟩
  · exact hin.advance hnext
  · exact h.inOrder j u hu

/-- A transaction commits: it is the first. -/
theorem BootstrapInv.commit {i : ℕ} {out : Uuid} (h : BootstrapInv s) (htx : s.tx i = some tx)
    (hs : tx.stmt s.toWorld (s.locked i) = .commit out) :
    BootstrapInv (s.set ((bootstraps env).commit s.toWorld tx out) i none) := by
  have hloc := commit_of_stmt hs
  have hc : counted tx.loc = true := by rw [hloc]; rfl
  have hin := h.inOrder i tx htx
  have hnone := h.empty i tx htx hc
  have hfirst : commits s = 0 := by
    by_contra hne
    have hpos := h.kept (Nat.pos_of_ne_zero hne)
    omega
  have hcommits : commits (s.set ((bootstraps env).commit s.toWorld tx out) i none) = 1 := by
    change (s.hist ++ [_]).countP _ = 1
    rw [countP_append, show s.hist.countP _ = 0 from hfirst]
    rfl
  have hold : ∀ j u, (s.set ((bootstraps env).commit s.toWorld tx out) i none).tx j = some u →
      j ≠ i ∧ s.tx j = some u := by
    intro j u hu
    rw [Program.State.tx_set htx] at hu
    by_cases hj : j = i
    · rw [if_pos hj] at hu
      cases hu
    · rw [if_neg hj] at hu
      exact ⟨hj, hu⟩
  have hothers : ∀ j u, (s.set ((bootstraps env).commit s.toWorld tx out) i none).tx j = some u →
      counted u.loc = true → False := by
    intro j u hu hcu
    obtain ⟨hj, hu⟩ := hold j u hu
    exact hj (h.alone j i u tx hu htx hcu hc)
  refine ⟨fun j u hu => h.inOrder j u (hold j u hu).2, fun j k u u' hu _ hcu _ =>
    (hothers j u hu hcu).elim, fun j u hu hcu => (hothers j u hu hcu).elim, fun _ => ?_,
    hcommits.le⟩
  exact activeAdmins_applyAll hin.active (.inr (hin.created (by rw [hloc]; rfl)))

theorem bootstrapInv_of_reach (hr : Program.ReachUnder CountsAlone (Program.State.init db) s) :
    BootstrapInv s := by
  induction hr with
  | refl =>
    refine ⟨fun i tx htx => ?_, fun i j tx u htx => ?_, fun i tx htx => ?_, fun h => ?_, ?_⟩
    · simp at htx
    · simp at htx
    · simp at htx
    · exact absurd h (Nat.lt_irrefl 0)
    · exact Nat.zero_le _
  | @step s s' a hr hok hstep ih =>
    cases Program.step_cases hstep with
    | begin r =>
      have hcases : ∀ i tx, (s.push (Program.Tx.begin r s.past.length s.now)).tx i = some tx →
          counted tx.loc = true → s.tx i = some tx := by
        intro i tx htx hcounted
        rw [Program.State.tx_push] at htx
        by_cases hi : i = s.txs.length
        · rw [if_pos hi] at htx
          cases htx
          exact absurd (counted_start r) (by rw [show counted r.start = true from hcounted]; simp)
        · rwa [if_neg hi] at htx
      refine ⟨fun i tx htx => ?_, fun i j tx u htx hu hc hc' => ?_, fun i tx htx hc => ?_,
        ih.kept, ih.once⟩
      · rw [Program.State.tx_push] at htx
        by_cases hi : i = s.txs.length
        · rw [if_pos hi] at htx
          cases htx
          exact txInOrder_begin r _ _
        · rw [if_neg hi] at htx
          exact ih.inOrder i tx htx
      · exact ih.alone i j tx u (hcases i tx htx hc) (hcases j u hu hc') hc hc'
      · exact ih.empty i tx (hcases i tx htx hc) hc
    | next i tx loc ls ws n htx hs hl => exact ih.advance hok htx hs
    | commit i tx out htx hs => exact ih.commit htx hs
    | reject i tx err htx hs =>
      refine ih.drop htx rfl ?_
      rw [Program.hist_reject, countP_append]
      rfl
    | abort i tx htx => exact ih.drop htx rfl rfl
    | tick n => exact ⟨ih.inOrder, ih.alone, ih.empty, ih.kept, ih.once⟩

variable {a : Action AdminBootstrapInitRequest}

/-- A commit of an administrator: no other step counts as one. -/
theorem commits_lt {s' : State env} (h : Program.step s a = some s')
    (hlt : commits s < commits s') :
    ∃ i tx out, s.tx i = some tx ∧ tx.stmt s.toWorld (s.locked i) = .commit out := by
  cases Program.step_cases h with
  | commit i tx out htx hs => exact ⟨i, tx, out, htx, hs⟩
  | reject i tx err htx hs =>
    change commits s < (s.hist ++ [_]).countP _ at hlt
    rw [countP_append] at hlt
    exact absurd hlt (Nat.lt_irrefl _)
  | _ => exact absurd hlt (Nat.lt_irrefl _)

/-- **At most one bootstrap administrator**: one request at most commits, and none where there is an
administrator, whatever requests overlap, as long as each counts alone. -/
theorem bootstrap_once (env : BootstrapEnv) {db : AdminDb} {s : State env}
    (hr : Program.ReachUnder CountsAlone (Program.State.init db) s) :
    commits s ≤ 1 ∧ ∀ a s', CountsAlone s a → Program.step s a = some s' →
      commits s < commits s' → s.db.activeAdmins = 0 := by
  have hinv := bootstrapInv_of_reach hr
  refine ⟨hinv.once, fun a s' _ hstep hlt => ?_⟩
  obtain ⟨i, tx, out, htx, hs⟩ := commits_lt hstep hlt
  have hloc := commit_of_stmt hs
  exact hinv.empty i tx htx (by rw [hloc]; rfl)

/-! ## Two requests -/

/-- Hashes and texts of a sample. -/
def sampleEnv : BootstrapEnv := ⟨fun password salt => some (password ++ toString salt), fun u =>
  String.ofList ((sampleUuidText u).toList.filter (· ≠ '-'))⟩

/-- A role, and no administrator. -/
def roleOnly : AdminDb := ⟨.empty, Table.empty.insert ⟨1, "super_admin"⟩, .empty⟩

def firstRequest : AdminBootstrapInitRequest := ⟨" root ", "secret-one", none, 10, 20, 30⟩

def secondRequest : AdminBootstrapInitRequest := ⟨"admin", "secret-two", some "Admin", 11, 21, 31⟩

/-- The statements of a transaction, one after another. -/
def runs (i n : ℕ) : List (Action AdminBootstrapInitRequest) := replicate n (.stmt i)

/-- Both count before either commits. -/
def bothCount : List (Action AdminBootstrapInitRequest) :=
  [.begin firstRequest, .begin secondRequest] ++ runs 0 1 ++ runs 1 6 ++ runs 0 5

theorem two_administrators :
    ¬ ∀ (env : BootstrapEnv) (db : AdminDb) (s : State env), db.activeAdmins = 0 →
      Program.Reach (Program.State.init db) s → commits s ≤ 1 := by
  intro h
  have hrun : (Program.run (P := bootstraps sampleEnv) (.init roleOnly) bothCount).map commits =
      some 2 := by
    decide +kernel
  obtain ⟨s, hs, hcommits⟩ := Option.map_eq_some_iff.1 hrun
  have hle := h sampleEnv roleOnly s rfl (Program.reach_of_run hs)
  rw [hcommits] at hle
  exact absurd hle (by decide)

/-- The condition, where requests come one after another. -/
def oneOpen (s : State env) (_ : Action AdminBootstrapInitRequest) : Bool :=
  s.txs.dropLast.all fun t => t.isNone

theorem countsAlone_of_oneOpen (h : oneOpen s a = true) : CountsAlone s a := by
  intro i tx _ htx _ j u hj hu
  have hi := Program.State.tx_of_dropLast_none h htx
  have hj' := Program.State.tx_of_dropLast_none h hu
  exact absurd (hj'.trans hi.symm) hj

/-- The first request creates an administrator, and the second is refused. -/
theorem bootstrap_once_sample :
    ∃ s, Program.runUnder (P := bootstraps sampleEnv) oneOpen (.init roleOnly)
        (.begin firstRequest :: runs 0 6 ++ .begin secondRequest :: runs 1 1) = some s ∧
      (s.db.admins.rows.map fun a => (a.username, a.email)) =
        [("root", "root@bootstrap.redcode-im.local")] ∧
      commits s ≤ 1 := by
  have hrun : (Program.runUnder (P := bootstraps sampleEnv) oneOpen (.init roleOnly)
      (.begin firstRequest :: runs 0 6 ++ .begin secondRequest :: runs 1 1)).map
        (fun s => s.db.admins.rows.map fun a => (a.username, a.email)) =
          some [("root", "root@bootstrap.redcode-im.local")] := by
    decide +kernel
  obtain ⟨s, hs, hadmins⟩ := Option.map_eq_some_iff.1 hrun
  exact ⟨s, hs, hadmins, (bootstrap_once sampleEnv
    (Program.reachUnder_of_runUnder (fun _ _ h => countsAlone_of_oneOpen h) hs)).1⟩

end Bootstrap

end RedcodeIm
