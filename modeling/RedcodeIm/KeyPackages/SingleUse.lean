import RedcodeIm.KeyPackages.PackageStep

/-!
# A key package is used once

Between two versions a package stays as it is or is consumed, once; its reference is
never published again.  So no two claims return the same package, and a consumed
package is never available again.

* `PackagesEvolve` — what can become of the packages between two versions.
* `KeyPackages.Inv` — the invariant, with the claims made so far.
* `key_package_single_use` — single use in every reachable state.
-/

namespace RedcodeIm

open ReadCommitted List

/-! ## What can become of a package -/

/-- A package stays, and is consumed at most once. -/
def PackagesEvolve (db db' : Db) : Prop :=
  ∀ id p, db.keyPackages.get id = some p → ∃ p', db'.keyPackages.get id = some p' ∧
    (p' = p ∨ p.consumedAt = none ∧ ∃ consumer now, p' = p.consume consumer now)

theorem PackagesEvolve.refl (db : Db) : PackagesEvolve db db :=
  fun _ p hp => ⟨p, hp, Or.inl rfl⟩

theorem PackagesEvolve.trans {a b c : Db} (h : PackagesEvolve a b) (h' : PackagesEvolve b c) :
    PackagesEvolve a c := by
  intro id p hp
  obtain ⟨p₁, hp₁, rfl | ⟨hnone, consumer, now, rfl⟩⟩ := h id p hp
  · exact h' id p₁ hp₁
  · obtain ⟨p₂, hp₂, rfl | ⟨hnone₂, -⟩⟩ := h' id _ hp₁
    · exact ⟨_, hp₂, Or.inr ⟨hnone, consumer, now, rfl⟩⟩
    · simp [KeyPackage.consume] at hnone₂

variable {db db' : Db}

theorem PackageStep.evolve (h : PackageStep db db') : PackagesEvolve db db' := by
  intro id p hp
  cases h with
  | idle h => exact ⟨p, by rw [h, hp], Or.inl rfl⟩
  | publish ps hf h =>
    have hmem : p ∈ db'.keyPackages.rows := by
      rw [h]
      exact mem_append_left _ (Table.mem_of_get hp)
    have hget := Table.get_of_mem hmem
    rw [Table.key_of_get hp] at hget
    exact ⟨p, hget, Or.inl rfl⟩
  | take row consumer now hrow ha h =>
    rw [h, Table.get_put]
    by_cases hid : (row.consume consumer now).id = id
    · have hrow' : db.keyPackages.get id = some row := by rw [← hid]; exact hrow
      rw [hrow', Option.some.injEq] at hp
      rw [← hp]
      exact ⟨_, if_pos hid, Or.inr ⟨(available_iff.1 ha).1, consumer, now, rfl⟩⟩
    · exact ⟨p, by rw [if_neg hid, hp], Or.inl rfl⟩

variable {p : KeyPackage}

/-- A consumed package stays as it is. -/
theorem PackagesEvolve.consumed (h : PackagesEvolve db db') {id : Uuid}
    (hp : db.keyPackages.get id = some p) (hc : p.consumedAt ≠ none) :
    db'.keyPackages.get id = some p := by
  obtain ⟨p', hp', rfl | ⟨hnone, -⟩⟩ := h id p hp
  · exact hp'
  · exact absurd hnone hc

/-- A package that is still available is what it was. -/
theorem PackagesEvolve.available (h : PackagesEvolve db db') {id : Uuid} {q : KeyPackage}
    (hp : db.keyPackages.get id = some p) (hq : db'.keyPackages.get id = some q)
    (hav : q.consumedAt = none) : q = p := by
  obtain ⟨p', hp', rfl | ⟨-, consumer, now, rfl⟩⟩ := h id p hp
  · exact Option.some.inj (hq.symm.trans hp')
  · rw [hq, Option.some.injEq] at hp'
    simp [hp', KeyPackage.consume] at hav

/-! ## References -/

/-- No two packages have the same reference. -/
def RefsUnique (db : Db) : Prop :=
  ∀ p ∈ db.keyPackages.rows, ∀ q ∈ db.keyPackages.rows, p.packageRef = q.packageRef → p = q

theorem PackageStep.refsUnique (h : PackageStep db db') (hr : RefsUnique db) : RefsUnique db' := by
  cases h with
  | idle h =>
    unfold RefsUnique
    rw [h]
    exact hr
  | publish ps hf h =>
    intro p hp q hq href
    rw [h] at hp hq
    rcases mem_append.1 hp with hp | hp <;> rcases mem_append.1 hq with hq | hq
    · exact hr p hp q hq href
    · exact absurd href (hf.refs q hq p hp)
    · exact absurd href.symm (hf.refs p hp q hq)
    · exact inj_on_of_nodup_map hf.distinctRefs hp hq href
  | take row consumer now hrow ha h =>
    have hmem := Table.mem_of_get hrow
    intro p hp q hq href
    rw [h] at hp hq
    rcases Table.mem_put hp with ⟨hp, hne⟩ | rfl <;> rcases Table.mem_put hq with ⟨hq, hne'⟩ | rfl
    · exact hr p hp q hq href
    · exact absurd (congrArg KeyPackage.id (hr p hp row hmem href)) hne
    · exact absurd (congrArg KeyPackage.id (hr q hq row hmem href.symm)) hne'
    · rfl

/-! ## The claims -/

/-- The claim as one version shows it: both devices are active, the package is available,
and its row with the consumer recorded is what the claim returns. -/
structure ClaimSeen (v : Db) (now : Timestamp) (user target consumer : Uuid) (p : KeyPackage) :
    Prop where
  targetActive : ∃ d, v.devices.get target = some d ∧ d.status = .active
  consumerActive : v.deviceActive consumer user = true
  row : ∃ row, v.keyPackages.get p.id = some row ∧ row.deviceId = target ∧
    row.consumedAt = none ∧ now < row.expiresAt ∧ p = row.consume consumer now

/-- The claim a call makes, for the room variant with both users members of the room. -/
def ClaimSeenBy (v : Db) (now : Timestamp) (p : KeyPackage) : Request → Prop
  | .takeKeyPackage user target consumer => ClaimSeen v now user target consumer p
  | .takeKeyPackageForRoom roomId user target consumer =>
    ClaimSeen v now user target consumer p ∧ v.isMember roomId user = true ∧
      ∃ d, v.devices.get target = some d ∧ v.isMember roomId d.userId = true
  | _ => False

/-- The call returned a package. -/
def Returned (f : Backend.Call) (p : KeyPackage) : Prop := f.result = .ok (.claimed (some p))

/-- The conditions of a call on devices and members. -/
def ClaimAllowed (v : Db) : Request → Prop
  | .takeKeyPackage user target consumer => v.mayTake user target consumer = true
  | .takeKeyPackageForRoom roomId user target consumer =>
    v.mayTakeForRoom roomId user target consumer = true
  | _ => False

/-- The devices a call names as target and consumer. -/
def ClaimDevices (target consumer : Uuid) : Request → Prop
  | .takeKeyPackage _ t c => t = target ∧ c = consumer
  | .takeKeyPackageForRoom _ _ t c => t = target ∧ c = consumer
  | _ => False

/-- A claim is offered a package in one version and consumes it in a later one. -/
def Claimed (w : Backend.World) (f : Backend.Call) (p : KeyPackage) : Prop :=
  ∃ target consumer n v c m db row, ClaimDevices target consumer f.req ∧
    f.born ≤ n ∧ n ≤ m ∧ f.closed = m + 1 ∧
    w.version n = some v ∧ ClaimAllowed v f.req ∧ v.keyPackages.get p.id = some c ∧
    c.deviceId = target ∧ c.available f.now = true ∧
    w.version m = some db ∧ db.keyPackages.get p.id = some row ∧ row.available f.now = true ∧
    p = row.consume consumer f.now

namespace KeyPackages

variable {w : Backend.World} {locked : LockKey → LockMode → Bool}

/-- A claim that is about to commit with a package. -/
theorem claiming_of_commit {tx : Backend.Tx} {p : KeyPackage} (h : Assertion w tx)
    (hs : tx.stmt w locked = .commit (.claimed (some p))) :
    ∃ target consumer row allowed, ClaimDevices target consumer tx.req ∧
      (∀ v, allowed v = true → ClaimAllowed v tx.req) ∧ p = row.consume consumer tx.now ∧
      tx.writes = [.putKeyPackage p] ∧
      Claiming w tx.born tx.now tx.locks allowed target row := by
  have hans : tx.req.answers (.claimed (some p)) := answers_of_commit hs
  obtain ⟨req, now, born, stage, locks, writes, covered⟩ := tx
  cases req with
  | takeKeyPackage user target consumer =>
    change takeStatement (fun db => db.mayTake user target consumer) target consumer _ stage
      = _ at hs
    obtain ⟨claimed, rfl, hout⟩ := take_commit hs
    obtain rfl : some p = claimed := Response.claimed.inj hout
    obtain ⟨row, hp, hw, hcl⟩ := h
    exact ⟨target, consumer, row, _, ⟨rfl, rfl⟩, fun v hv => hv, hp, hw, hcl⟩
  | takeKeyPackageForRoom roomId user target consumer =>
    change takeStatement (fun db => db.mayTakeForRoom roomId user target consumer) target
      consumer _ stage = _ at hs
    obtain ⟨claimed, rfl, hout⟩ := take_commit hs
    obtain rfl : some p = claimed := Response.claimed.inj hout
    obtain ⟨row, hp, hw, hcl⟩ := h
    exact ⟨target, consumer, row, _, ⟨rfl, rfl⟩, fun v hv => hv, hp, hw, hcl⟩
  | _ => simp [Request.answers] at hans

/-- Claims are recorded truly. -/
theorem claimed_holds (db : Db) : Program.Holds e2eeBackend db
    (fun w => ∀ f ∈ w.hist, ∀ p, Returned f p → Claimed w f p) (fun _ _ => True) := by
  refine Program.records_hold (Q := fun w f => ∀ p, Returned f p → Claimed w f p) ?_ (holds db)
    ?_ ?_
  · intro w w' f hkeep h p hp
    obtain ⟨target, consumer, n, v, c, m, db, row, hd, hn, hnm, hm, hv, ha, hc, hct, hca, hdb,
      hrest⟩ := h p hp
    exact ⟨target, consumer, n, v, c, m, db, row, hd, hn, hnm, hm, hkeep n v hv, ha, hc, hct, hca,
      hkeep m db hdb, hrest⟩
  · intro w tx locked out _ hB hs p hp
    obtain rfl : out = .claimed (some p) := Except.ok.inj hp
    obtain ⟨target, consumer, row, allowed, hd, hall, hrow, -, hcl⟩ := claiming_of_commit hB.1 hs
    obtain ⟨n, v, hn, hv, hav, c, hc, hct, hca⟩ := hcl.offered
    have hlt : n ≤ w.past.length := by
      obtain ⟨hlen, -⟩ := List.getElem?_eq_some_iff.1 hv
      rw [length_append, length_singleton] at hlen
      omega
    have hid : p.id = row.id := by rw [hrow]; rfl
    refine ⟨target, consumer, n, v, c, w.past.length, w.db, row, hd, hn, hlt, rfl,
      e2eeBackend.version_commit hv tx _, hall v hav, ?_, hct, hca,
      e2eeBackend.version_commit w.version_length tx _, ?_, hcl.available, hrow⟩
    · rw [hid, hc]
    · rw [hid, hcl.stored]
  · intro w tx locked err _ _ _ p hp
    cases hp

/-! ## The invariant -/

/-- References are unique, and every package a claim returned is stored as returned, by no
other claim. -/
structure Inv (w : Backend.World) : Prop where
  refs : RefsUnique w.db
  stored : ∀ f ∈ w.hist, ∀ p, Returned f p →
    w.db.keyPackages.get p.id = some p ∧ p.consumedAt ≠ none
  once : w.hist.Pairwise fun f g => ∀ p q, Returned f p → Returned g q → p.id ≠ q.id

/-- A call that ends without returning a package changes nothing. -/
theorem Inv.append {w' : Backend.World} {f : Backend.Call} (hdb : w'.db = w.db)
    (hhist : w'.hist = w.hist ++ [f]) (hf : ∀ p, ¬ Returned f p) (h : Inv w) : Inv w' := by
  refine ⟨by rw [hdb]; exact h.refs, fun g hg p hp => ?_, ?_⟩
  · rw [hdb]
    rw [hhist] at hg
    rcases mem_append.1 hg with hg | hg
    · exact h.stored g hg p hp
    · rw [mem_singleton.1 hg] at hp
      exact absurd hp (hf p)
  · rw [hhist, pairwise_append]
    refine ⟨h.once, pairwise_singleton _ _, fun g hg x hx p q hp hq => ?_⟩
    rw [mem_singleton.1 hx] at hq
    exact absurd hq (hf q)

/-- **Every commit keeps the invariant.** -/
theorem Inv.commit {tx : Backend.Tx} {out : Response} (ht : Backend.InTables tx)
    (hA : Assertion w tx) (h : Inv w) (hs : tx.stmt w locked = .commit out) :
    Inv (e2eeBackend.commit w tx out) := by
  have hstep : PackageStep w.db (tx.see w.db) := packageStep_of_commit ht hA hs
  have hnew : ∀ p, out = .claimed (some p) → ∃ row, w.db.keyPackages.get p.id = some row ∧
      row.consumedAt = none ∧ (tx.see w.db).keyPackages.get p.id = some p ∧
      p.consumedAt ≠ none := by
    rintro p rfl
    obtain ⟨target, consumer, row, allowed, -, -, hrow, hw, hcl⟩ := claiming_of_commit hA hs
    have hid : p.id = row.id := by rw [hrow]; rfl
    refine ⟨row, by rw [hid, hcl.stored], (available_iff.1 hcl.available).1, ?_, ?_⟩
    · rw [Program.Tx.see, hw]
      exact Table.get_put_self _ p
    · rw [hrow]
      simp [KeyPackage.consume]
  refine ⟨hstep.refsUnique h.refs, fun f hf p hp => ?_, ?_⟩
  · rcases mem_append.1 hf with hf | hf
    · obtain ⟨hget, hc⟩ := h.stored f hf p hp
      exact ⟨hstep.evolve.consumed hget hc, hc⟩
    · rw [mem_singleton.1 hf] at hp
      obtain ⟨row, -, -, hget, hc⟩ := hnew p (Except.ok.inj hp)
      exact ⟨hget, hc⟩
  · rw [Program.hist_commit, pairwise_append]
    refine ⟨h.once, pairwise_singleton _ _, fun f hf g hg p q hp hq hpq => ?_⟩
    rw [mem_singleton.1 hg] at hq
    obtain ⟨row, hrow, hnone, -, -⟩ := hnew q (Except.ok.inj hq)
    obtain ⟨hget, hc⟩ := h.stored f hf p hp
    rw [hpq, hrow, Option.some.injEq] at hget
    exact hc (hget ▸ hnone)

theorem Inv.outline : Program.Outline e2eeBackend (fun _ => True)
    (fun w tx => Assertion w tx ∧ Backend.InTables tx) Inv (fun _ _ => True) where
  quiet := fun {w w'} hq h =>
    ⟨by rw [hq.db]; exact h.refs, by rw [hq.db, hq.hist]; exact h.stored,
      by rw [hq.hist]; exact h.once⟩
  stable := fun _ _ => trivial
  start := fun _ _ _ => trivial
  next := fun _ _ _ _ _ => trivial
  commit := fun _ hB h _ hs _ => h.commit hB.2 hB.1 hs
  other := fun _ _ _ _ _ _ _ _ => trivial
  reject := by
    intro w tx locked err _ _ h _ _
    refine Inv.append (w := w) (f := tx.finish w.past.length (.error err)) rfl rfl ?_ h
    intro p hp
    cases hp

end KeyPackages

/-! ## Reachable states -/

theorem Backend.Reachable.packages {s : Backend.State} (hs : Backend.Reachable s) :
    KeyPackages.Inv s.toWorld := by
  obtain ⟨db, hdb, hr⟩ := hs
  refine (KeyPackages.Inv.outline.holds (KeyPackages.holds db) ?_ s hr).1
  have hrows : (World.init db : Backend.World).db.keyPackages.rows = [] := hdb.keyPackages
  exact ⟨by simp [RefsUnique, hrows], by simp [World.init], by simp [World.init]⟩

theorem packages_versions (db : Db) : Program.Holds e2eeBackend db
    (fun w => (w.past ++ [w.db]).Pairwise PackagesEvolve) (fun _ _ => True) :=
  Program.versions_holds PackagesEvolve.refl PackagesEvolve.trans (KeyPackages.holds db)
    fun _ hB hs => (KeyPackages.packageStep_of_commit hB.2 hB.1 hs).evolve

/-- The claim a record shows in the version its candidates come from. -/
theorem claimSeen_of_claimed {w : Backend.World} (hev : (w.past ++ [w.db]).Pairwise PackagesEvolve)
    {f : Backend.Call} (h : Claimed w f p) :
    ∃ n v, f.born ≤ n ∧ n < f.closed ∧ w.version n = some v ∧
      ClaimSeenBy v f.now p f.req := by
  obtain ⟨target, consumer, n, v, c, m, db, row, hd, hn, hnm, hm, hv, ha, hc, hct, hca, hdb, hrow,
    hra, hp⟩ := h
  have hrc : row = c := (World.rel_of_version PackagesEvolve.refl hev hnm hv hdb).available hc hrow
    (available_iff.1 hra).1
  subst hrc
  obtain ⟨hnone, hexp⟩ := available_iff.1 hca
  refine ⟨n, v, hn, by omega, hv, ?_⟩
  have hseen : ∀ user, v.mayTake user target consumer = true →
      ClaimSeen v f.now user target consumer p := by
    intro user hmay
    simp only [Db.mayTake, Bool.and_eq_true, Option.any_eq_true, decide_eq_true_eq] at hmay
    exact ⟨hmay.1, hmay.2, row, hc, hct, hnone, hexp, hp⟩
  generalize f.req = r at hd ha ⊢
  cases r with
  | takeKeyPackage user t c =>
    obtain ⟨rfl, rfl⟩ := hd
    exact hseen user ha
  | takeKeyPackageForRoom roomId user t c =>
    obtain ⟨rfl, rfl⟩ := hd
    simp only [ClaimAllowed, Db.mayTakeForRoom, Bool.and_eq_true, Option.any_eq_true] at ha
    exact ⟨hseen user ha.1.1, ha.1.2, ha.2⟩
  | _ => exact absurd ha id

/-- Single use of all key packages. -/
structure SingleUse (s : Backend.State) : Prop where
  /-- No two claims have returned the same package. -/
  once : s.hist.Pairwise fun f g => ∀ p q, Returned f p → Returned g q → p.id ≠ q.id
  /-- What a claim returned was available, and allowed, in the version it looked at. -/
  seen : ∀ f ∈ s.hist, ∀ p, Returned f p → ∃ n v, f.born ≤ n ∧ n < f.closed ∧
    s.version n = some v ∧ ClaimSeenBy v f.now p f.req
  /-- What a claim returned is stored as it was returned. -/
  stored : ∀ f ∈ s.hist, ∀ p, Returned f p →
    s.db.keyPackages.get p.id = some p ∧ p.consumedAt ≠ none
  /-- A consumed package is never available again, nor is another with its reference. -/
  spent : ∀ s', Program.Reach s s' → ∀ p ∈ s.db.keyPackages.rows, p.consumedAt ≠ none →
    p ∈ s'.db.keyPackages.rows ∧ ∀ q ∈ s'.db.keyPackages.rows,
      q.id = p.id ∨ q.packageRef = p.packageRef → q = p ∧ ∀ now, q.available now = false

/-- **Every key package is used at most once, in every reachable state.** -/
theorem key_package_single_use {s : Backend.State} (hs : Backend.Reachable s) : SingleUse s := by
  have hinv := hs.packages
  obtain ⟨db, hdb, hr⟩ := hs
  refine ⟨hinv.once, fun f hf p hp => ?_, hinv.stored, fun s' hr' p hp hc => ?_⟩
  · exact claimSeen_of_claimed (packages_versions db s hr).1
      ((KeyPackages.claimed_holds db s hr).1 f hf p hp)
  · have hev : PackagesEvolve s.db s'.db :=
      Program.rel_of_reach PackagesEvolve.refl PackagesEvolve.trans (packages_versions db) hr hr'
    have hp' : p ∈ s'.db.keyPackages.rows :=
      Table.mem_of_get (hev.consumed (Table.get_of_mem hp) hc)
    refine ⟨hp', fun q hq hsame => ?_⟩
    have hrefs : RefsUnique s'.db := (Backend.Reachable.packages ⟨db, hdb, hr.trans hr'⟩).refs
    have hqp : q = p := by
      rcases hsame with hid | href
      · exact Table.eq_of_key_eq hq hp' hid
      · exact hrefs q hq p hp' href
    refine ⟨hqp, fun now => ?_⟩
    rw [hqp]
    simp [KeyPackage.available, hc]

/-! ### A package claimed twice -/

namespace Sample

/-- A package with a reference of its own for each id of two bytes. -/
def newPackage (id : ℕ) : NewKeyPackage where
  id := id
  packageRef := UInt8.ofNat (id / 256) :: UInt8.ofNat id :: replicate 14 0
  keyPackage := [1]
  protocolVersion := 1
  expiresAt := 100

/-- Device `21` publishes a package, and the two devices of user `1` claim it at once: the
second finds the row locked and passes it over. -/
def claims : List (Action Request) :=
  alone 5 5 (.publishKeyPackages 2 21 [newPackage 1])
    ++ [.begin (.takeKeyPackageForRoom 1 1 21 11), .begin (.takeKeyPackage 1 21 12),
      .stmt 6, .stmt 7, .stmt 6, .stmt 7, .stmt 6, .stmt 7, .stmt 6, .stmt 7]

/-- The state after both claims. -/
def claimed : Backend.State := (Program.run start claims).get (by decide)

theorem reachable_claimed : Backend.Reachable claimed :=
  reachable_start.reach (Program.reach_of_run (Option.some_get _).symm)

end Sample

theorem key_package_single_use_sample :
    Sample.claimed.db.keyPackages.rows.map (fun p => p.consumedByDeviceId) = [some 11] ∧
      SingleUse Sample.claimed :=
  ⟨by decide, key_package_single_use Sample.reachable_claimed⟩

end RedcodeIm
