import RedcodeIm.Lib.ReadCommitted

/-!
# Proof outlines for transactions

An invariant of a system of transactions is proved by an *outline*: an assertion
`I` about what is committed, and an assertion `A` about each transaction in flight.
Each statement has to keep its own transaction's assertion, each commit has to
keep `I` and the assertions of the transactions still in flight (non-interference).

* `Outline` — the obligations.
* `Outline.holds` — they give `I` and `A` in every reachable state.
* `Conditions`, `OutlineUnder`, `OutlineUnder.holds` — the same for the runs whose steps meet
  conditions.
* `Guarded` — an observation that can only be changed under a lock.
* `Guarded.see_eq` — while one transaction holds that lock, no other changes it.
* `versions_holds`, `records_hold`, `steps_hold` — relations between all versions, facts about
  all ended calls, and the call behind each version.
-/

namespace ReadCommitted

open List

namespace World

variable {Db Write Req Err Out : Type}

/-- Nothing has been committed between the two worlds. -/
structure Later (w w' : World Db Write Req Err Out) : Prop where
  db : w'.db = w.db
  past : w'.past = w.past
  seq : w.seq ≤ w'.seq
  now : w.now ≤ w'.now

/-- No transaction has ended between the two worlds. -/
structure Quiet (w w' : World Db Write Req Err Out) : Prop extends Later w w' where
  hist : w'.hist = w.hist

theorem quiet_draw (w : World Db Write Req Err Out) (n : ℕ) : w.Quiet (w.draw n) :=
  { db := rfl, past := rfl, seq := Nat.le_add_right _ _, now := Nat.le_refl _, hist := rfl }

theorem quiet_tick (w : World Db Write Req Err Out) (n : ℕ) : w.Quiet (w.tick n) :=
  { db := rfl, past := rfl, seq := Nat.le_refl _, now := Nat.le_add_right _ _, hist := rfl }

variable {w w' : World Db Write Req Err Out}

theorem Later.version (h : w.Later w') (n : ℕ) : w'.version n = w.version n := by
  simp [World.version, h.db, h.past]

/-- Some version committed since number `born` has the property. -/
def Seen (w : World Db Write Req Err Out) (born : ℕ) (p : Db → Prop) : Prop :=
  ∃ n db, born ≤ n ∧ w.version n = some db ∧ p db

variable {p : Db → Prop}

theorem Later.seen (h : w.Later w') {born : ℕ} (hs : w.Seen born p) : w'.Seen born p := by
  obtain ⟨n, db, hn, hv, hp⟩ := hs
  exact ⟨n, db, hn, by rw [h.version, hv], hp⟩

theorem Seen.mono {born : ℕ} {q : Db → Prop} (h : w.Seen born p) (hpq : ∀ db, p db → q db) :
    w.Seen born q := by
  obtain ⟨n, db, hn, hv, hp⟩ := h
  exact ⟨n, db, hn, hv, hpq db hp⟩

/-- A property of the current version is one of a version since `born`. -/
theorem seen_of_db {born : ℕ} (hb : born ≤ w.past.length) (hp : p w.db) : w.Seen born p :=
  ⟨w.past.length, w.db, hb, w.version_length, hp⟩

end World

namespace Program

variable {Db Write Key Req Err Out : Type} {Loc : Req → Type}
variable {P : Program Db Write Key Req Err Out Loc}

theorem later_reject (w : World Db Write Req Err Out) (tx : P.Tx) (err : Err) :
    w.Later (P.reject w tx err) :=
  { db := rfl, past := rfl, seq := Nat.le_refl _, now := Nat.le_refl _ }

variable {w : World Db Write Req Err Out}

theorem seen_commit {born : ℕ} {p : Db → Prop} (h : w.Seen born p) (tx : P.Tx) (out : Out) :
    (P.commit w tx out).Seen born p := by
  obtain ⟨n, db, hn, hv, hp⟩ := h
  exact ⟨n, db, hn, P.version_commit hv tx out, hp⟩

/-! ## Guarded observations -/

/-- Only writes that take the lock `k` change the observation. -/
def Guarded {α : Type} (P : Program Db Write Key Req Err Out Loc) (f : Db → α) (k : Key) : Prop :=
  ∀ db w, (∀ p ∈ P.guards w, p.1 ≠ k) → f (P.apply db w) = f db

variable {k : Key}

variable {α : Type} {f : Db → α}

theorem Guarded.applyAll (hf : Guarded P f k) {ws : List Write}
    (h : ∀ w ∈ ws, ∀ p ∈ P.guards w, p.1 ≠ k) (db : Db) : f (P.applyAll db ws) = f db := by
  induction ws generalizing db with
  | nil => rfl
  | cons w ws ih =>
    rw [applyAll_cons, ih fun w' hw' => h w' (mem_cons_of_mem _ hw'),
      hf db w (h w mem_cons_self)]

/-- No write of the transaction takes the lock `k`. -/
def Tx.Avoids (tx : P.Tx) (k : Key) : Prop := ∀ w ∈ tx.writes, ∀ p ∈ P.guards w, p.1 ≠ k

theorem Guarded.see (hf : Guarded P f k) {tx : P.Tx} (h : tx.Avoids k) (db : Db) :
    f (tx.see db) = f db :=
  hf.applyAll h db

variable [DecidableEq Key]

/-- While one transaction holds the lock `k`, no other writes under it. -/
theorem avoids_of_lock {tx u : P.Tx} (hc : Locks.compatible tx.locks u.locks = true) {m : LockMode}
    (hk : (k, m) ∈ u.locks) (hm : m.protects = true) : tx.Avoids k := by
  intro w hw p hp hpk
  have hheld : (k, p.2) ∈ tx.locks := by
    rw [← hpk]
    exact tx.covered w hw p hp
  have := Locks.not_isWrite_of_protects (Locks.compatible_comm hc) hk hm hheld
  rw [P.guards_isWrite w p hp] at this
  exact absurd this (by simp)

/-- **Non-interference under a lock.**  An observation guarded by `k` is not changed
by the commit of one transaction while another holds `k`. -/
theorem Guarded.see_eq (hf : Guarded P f k) {tx u : P.Tx}
    (hc : Locks.compatible tx.locks u.locks = true) {m : LockMode} (hk : (k, m) ∈ u.locks)
    (hm : m.protects = true) (db : Db) : f (tx.see db) = f db :=
  hf.see (avoids_of_lock hc hk hm) db

/-! ## The rule -/

/-- Both assertions in every reachable state. -/
def Holds (P : Program Db Write Key Req Err Out Loc) (db : Db)
    (I : World Db Write Req Err Out → Prop)
    (A : World Db Write Req Err Out → P.Tx → Prop) : Prop :=
  ∀ s : P.State, Reach (State.init db) s →
    I s.toWorld ∧ ∀ i tx, s.tx i = some tx → A s.toWorld tx

/-- The obligations of an outline `I`, `A` over assertions `J`, `B` that are known to
hold in every reachable state. -/
structure Outline (P : Program Db Write Key Req Err Out Loc)
    (J : World Db Write Req Err Out → Prop) (B : World Db Write Req Err Out → P.Tx → Prop)
    (I : World Db Write Req Err Out → Prop)
    (A : World Db Write Req Err Out → P.Tx → Prop) : Prop where
  /-- `I` speaks of what is committed and of the past only. -/
  quiet : ∀ {w w'}, w.Quiet w' → I w → I w'
  /-- `A` is kept as long as nothing is committed. -/
  stable : ∀ {w w' u}, w.Later w' → A w u → A w' u
  /-- `A` holds when a transaction begins. -/
  start : ∀ {w} r, J w → I w → A w (Tx.begin r w.past.length w.now)
  /-- `A` is kept by the transaction's own statements. -/
  next : ∀ {w tx locked loc ls ws n}, J w → B w tx → I w → A w tx →
    tx.stmt w locked = .next loc ls ws n → A (w.draw n) (tx.advance loc ls ws)
  /-- `I` is kept by a commit. -/
  commit : ∀ {w tx locked out}, J w → B w tx → I w → A w tx →
    tx.stmt w locked = .commit out → J (P.commit w tx out) → I (P.commit w tx out)
  /-- `A` is kept by the commit of another transaction. -/
  other : ∀ {w tx u locked out}, J w → B w tx → B w u → I w → A w tx → A w u →
    Locks.compatible tx.locks u.locks = true → tx.stmt w locked = .commit out →
    A (P.commit w tx out) u
  /-- `I` is kept by a failure. -/
  reject : ∀ {w tx locked err}, J w → B w tx → I w → A w tx →
    tx.stmt w locked = .fail err → I (P.reject w tx err)

/-- No assertion at all holds everywhere. -/
theorem holds_true (db : Db) : Holds P db (fun _ => True) (fun _ _ => True) :=
  fun _ _ => ⟨trivial, fun _ _ _ => trivial⟩

variable {db : Db} {I J : World Db Write Req Err Out → Prop}
  {A B : World Db Write Req Err Out → P.Tx → Prop}

theorem Holds.and (h : Holds P db I A) (h' : Holds P db J B) :
    Holds P db (fun w => I w ∧ J w) (fun w t => A w t ∧ B w t) :=
  fun s hr => ⟨⟨(h s hr).1, (h' s hr).1⟩,
    fun i tx htx => ⟨(h s hr).2 i tx htx, (h' s hr).2 i tx htx⟩⟩

/-! ## The rule under conditions -/

/-- What the steps of a run have to meet: the requests that begin, and the calls in flight
that run a statement or are lost. -/
structure Conditions (P : Program Db Write Key Req Err Out Loc) where
  begin : Req → Prop
  stmt : World Db Write Req Err Out → P.Tx → Prop
  abort : World Db Write Req Err Out → P.Tx → Prop

/-- The action meets the conditions in the state in which it is taken. -/
def Conditions.Met (c : Conditions P) (s : P.State) : Action Req → Prop
  | .begin r => c.begin r
  | .stmt i => ∀ tx, s.tx i = some tx → c.stmt s.toWorld tx
  | .abort i => ∀ tx, s.tx i = some tx → c.abort s.toWorld tx
  | .tick _ => True

/-- Nothing has to be met. -/
def Conditions.none : Conditions P := ⟨fun _ => True, fun _ _ => True, fun _ _ => True⟩

omit [DecidableEq Key] in
theorem Conditions.met_none (s : P.State) (a : Action Req) :
    (Conditions.none : Conditions P).Met s a := by
  cases a with
  | begin | tick => trivial
  | stmt | abort => exact fun _ _ => trivial

/-- Both assertions in every state of the runs that meet the conditions. -/
def HoldsUnder (P : Program Db Write Key Req Err Out Loc) (c : Conditions P) (db : Db)
    (I : World Db Write Req Err Out → Prop)
    (A : World Db Write Req Err Out → P.Tx → Prop) : Prop :=
  ∀ s : P.State, ReachUnder c.Met (State.init db) s →
    I s.toWorld ∧ ∀ i tx, s.tx i = some tx → A s.toWorld tx

/-- The obligations of an outline whose steps meet the conditions. -/
structure OutlineUnder (P : Program Db Write Key Req Err Out Loc) (c : Conditions P)
    (J : World Db Write Req Err Out → Prop) (B : World Db Write Req Err Out → P.Tx → Prop)
    (I : World Db Write Req Err Out → Prop)
    (A : World Db Write Req Err Out → P.Tx → Prop) : Prop where
  quiet : ∀ {w w'}, w.Quiet w' → I w → I w'
  stable : ∀ {w w' u}, w.Later w' → A w u → A w' u
  start : ∀ {w} r, c.begin r → J w → I w → A w (Tx.begin r w.past.length w.now)
  next : ∀ {w tx locked loc ls ws n}, c.stmt w tx → J w → B w tx → I w → A w tx →
    tx.stmt w locked = .next loc ls ws n → A (w.draw n) (tx.advance loc ls ws)
  commit : ∀ {w tx locked out}, c.stmt w tx → J w → B w tx → I w → A w tx →
    tx.stmt w locked = .commit out → J (P.commit w tx out) → I (P.commit w tx out)
  other : ∀ {w tx u locked out}, c.stmt w tx → J w → B w tx → B w u → I w → A w tx → A w u →
    Locks.compatible tx.locks u.locks = true → tx.stmt w locked = .commit out →
    A (P.commit w tx out) u
  reject : ∀ {w tx locked err}, c.stmt w tx → J w → B w tx → I w → A w tx →
    tx.stmt w locked = .fail err → I (P.reject w tx err)

/-- **The rule.**  The obligations of an outline give its assertions in every state of the
runs that meet its conditions. -/
theorem OutlineUnder.holds {c : Conditions P} (o : OutlineUnder P c J B I A)
    (hK : HoldsUnder P c db J B) (h₀ : I (World.init db)) : HoldsUnder P c db I A := by
  intro s hr
  induction hr with
  | refl => exact ⟨h₀, fun i tx h => by simp at h⟩
  | @step s s' a hr hok hstep ih =>
    obtain ⟨hI, hA⟩ := ih
    have hJ := (hK s hr).1
    have hB := (hK s hr).2
    have hJ' := (hK s' (hr.step hok hstep)).1
    cases step_cases hstep with
    | begin r =>
      refine ⟨hI, fun j u hu => ?_⟩
      rw [State.tx_push] at hu
      by_cases hj : j = s.txs.length
      · rw [if_pos hj] at hu
        rw [← Option.some.inj hu]
        exact o.start r hok hJ hI
      · rw [if_neg hj] at hu
        exact hA j u hu
    | next i tx loc ls ws n htx hs hl =>
      refine ⟨o.quiet (s.quiet_draw n) hI, fun j u hu => ?_⟩
      rw [State.tx_set htx] at hu
      by_cases hj : j = i
      · rw [if_pos hj] at hu
        rw [← Option.some.inj hu]
        exact o.next (hok tx htx) hJ (hB i tx htx) hI (hA i tx htx) hs
      · rw [if_neg hj] at hu
        exact o.stable (s.quiet_draw n).toLater (hA j u hu)
    | commit i tx out htx hs =>
      refine ⟨o.commit (hok tx htx) hJ (hB i tx htx) hI (hA i tx htx) hs hJ', fun j u hu => ?_⟩
      rw [State.tx_set htx] at hu
      by_cases hj : j = i
      · simp [hj] at hu
      · rw [if_neg hj] at hu
        exact o.other (hok tx htx) hJ (hB i tx htx) (hB j u hu) hI (hA i tx htx) (hA j u hu)
          (compatible_of_reach hr.reach (Ne.symm hj) htx hu) hs
    | reject i tx err htx hs =>
      refine ⟨o.reject (hok tx htx) hJ (hB i tx htx) hI (hA i tx htx) hs, fun j u hu => ?_⟩
      rw [State.tx_set htx] at hu
      by_cases hj : j = i
      · simp [hj] at hu
      · rw [if_neg hj] at hu
        exact o.stable (later_reject s.toWorld tx err) (hA j u hu)
    | abort i tx htx =>
      refine ⟨hI, fun j u hu => ?_⟩
      rw [State.tx_set htx] at hu
      by_cases hj : j = i
      · simp [hj] at hu
      · rw [if_neg hj] at hu
        exact hA j u hu
    | tick n =>
      exact ⟨o.quiet (s.quiet_tick n) hI,
        fun j u hu => o.stable (s.quiet_tick n).toLater (hA j u hu)⟩

/-- What holds in every run holds in those that meet the conditions. -/
theorem Holds.under (h : Holds P db I A) (c : Conditions P) : HoldsUnder P c db I A :=
  fun s hr => h s hr.reach

/-- An outline needs no conditions. -/
theorem Outline.under (o : Outline P J B I A) : OutlineUnder P Conditions.none J B I A where
  quiet := o.quiet
  stable := o.stable
  start := fun r _ => o.start r
  next := fun _ => o.next
  commit := fun _ => o.commit
  other := fun _ => o.other
  reject := fun _ => o.reject

/-- The obligations of an outline give its assertions in every reachable state. -/
theorem Outline.holds (o : Outline P J B I A) (hK : Holds P db J B) (h₀ : I (World.init db)) :
    Holds P db I A :=
  fun s hr => o.under.holds (hK.under _) h₀ s (hr.mono fun s a _ => Conditions.met_none s a)

/-! ## The history -/

/-- What the record of an ended transaction says of the versions. -/
structure Recorded (P : Program Db Write Key Req Err Out Loc) (w : World Db Write Req Err Out)
    (f : Finished Write Req Err Out) : Prop where
  /-- It ended at a version that exists. -/
  closed : f.closed ≤ w.past.length
  /-- It ended no earlier than it began. -/
  born : f.born ≤ f.closed
  /-- If it committed, its writes made the version it ended at out of the one before. -/
  made : ∀ out, f.result = .ok out → ∃ n db, f.closed = n + 1 ∧ f.born ≤ n ∧
    w.version n = some db ∧ w.version (n + 1) = some (P.applyAll db f.writes)

omit [DecidableEq Key] in
theorem Recorded.later {w' : World Db Write Req Err Out} {f : Finished Write Req Err Out}
    (h : Recorded P w f) (hpast : w.past.length ≤ w'.past.length)
    (hv : ∀ n db, w.version n = some db → w'.version n = some db) : Recorded P w' f := by
  refine ⟨Nat.le_trans h.closed hpast, h.born, fun out hout => ?_⟩
  obtain ⟨n, db, hn, hb, hv₁, hv₂⟩ := h.made out hout
  exact ⟨n, db, hn, hb, hv n db hv₁, hv _ _ hv₂⟩

/-- The outline of the history: every ended transaction is recorded truly. -/
theorem history_outline :
    Outline P (fun _ => True) (fun _ _ => True) (fun w => ∀ f ∈ w.hist, Recorded P w f)
      (fun w tx => tx.born ≤ w.past.length) where
  quiet := by
    intro w w' hq hI f hf
    rw [hq.hist] at hf
    exact (hI f hf).later (Nat.le_of_eq (by rw [hq.past])) fun n db hv => by rw [hq.version, hv]
  stable := by
    intro w w' u hl hu
    rw [hl.past]
    exact hu
  start := by
    intro w r _ _
    exact Nat.le_refl _
  next := by
    intro w tx locked loc ls ws n _ _ _ hA _
    exact hA
  commit := by
    intro w tx locked out _ _ hI hA _ _ f hf
    have hlen : (P.commit w tx out).past.length = w.past.length + 1 := by simp
    rcases mem_append.1 hf with hf | hf
    · exact (hI f hf).later (by omega) fun n db hv => P.version_commit hv tx out
    · rw [mem_singleton.1 hf]
      refine ⟨by rw [hlen]; exact Nat.le_refl _, Nat.le_succ_of_le hA, fun _ _ => ?_⟩
      refine ⟨w.past.length, w.db, rfl, hA, P.version_commit w.version_length tx out, ?_⟩
      rw [← hlen, World.version_length]
      rfl
  other := by
    intro w tx u locked out _ _ _ _ _ hu _ _
    rw [past_commit, length_append]
    exact Nat.le_add_right_of_le hu
  reject := by
    intro w tx locked err _ _ hI hA _ f hf
    rcases mem_append.1 hf with hf | hf
    · exact (hI f hf).later (Nat.le_refl _) fun n db hv => hv
    · rw [mem_singleton.1 hf]
      exact ⟨Nat.le_refl _, hA, fun out hout => by simp [Tx.finish] at hout⟩

/-- Every ended transaction of a run is recorded truly. -/
theorem history_holds (db : Db) :
    Holds P db (fun w => ∀ f ∈ w.hist, Recorded P w f) (fun w tx => tx.born ≤ w.past.length) :=
  history_outline.holds (holds_true db) (by simp [World.init])

omit [DecidableEq Key] in
/-- The version a commit makes is the one after the current. -/
theorem version_made (w : World Db Write Req Err Out) (tx : P.Tx) (out : Out) :
    (P.commit w tx out).version (w.past.length + 1) = some (tx.see w.db) := by
  have h := (P.commit w tx out).version_length
  rwa [past_commit, length_append] at h

/-- **A relation that every commit makes good holds between all versions.** -/
theorem versions_holds {r : Db → Db → Prop} (hrefl : ∀ a, r a a)
    (htrans : ∀ {a b c}, r a b → r b c → r a c) (hK : Holds P db J B)
    (hcommit : ∀ {w tx locked out}, J w → B w tx → tx.stmt w locked = .commit out →
      r w.db (tx.see w.db)) :
    Holds P db (fun w => (w.past ++ [w.db]).Pairwise r) (fun _ _ => True) := by
  refine Outline.holds (J := J) (B := B) ?_ hK (pairwise_singleton _ _)
  refine ⟨fun {w w'} hq h => ?_, fun _ _ => trivial, fun _ _ _ => trivial,
    fun _ _ _ _ _ => trivial, ?_, fun _ _ _ _ _ _ _ _ => trivial, fun _ _ h _ _ => h⟩
  · rw [hq.past, hq.db]
    exact h
  · intro w tx locked out hJ hB h _ hs _
    rw [past_commit, db_commit, pairwise_append]
    refine ⟨h, pairwise_singleton _ _, fun a ha b hb => ?_⟩
    rw [mem_singleton.1 hb]
    refine htrans ?_ (hcommit hJ hB hs)
    rcases mem_append.1 ha with ha | ha
    · exact (pairwise_append.1 h).2.2 a ha w.db (by simp)
    · rw [mem_singleton.1 ha]
      exact hrefl _

/-- It holds along every run. -/
theorem rel_of_reach {r : Db → Db → Prop} (hrefl : ∀ a, r a a)
    (htrans : ∀ {a b c}, r a b → r b c → r a c)
    (hK : Holds P db (fun w => (w.past ++ [w.db]).Pairwise r) (fun _ _ => True)) {s s' : P.State}
    (hs : Reach (State.init db) s) (h : Reach s s') : r s.db s'.db := by
  induction h with
  | refl => exact hrefl _
  | @step s₁ s₂ a hr _ hstep ih =>
    refine htrans ih ?_
    cases step_cases hstep with
    | commit i tx out htx hstmt =>
      have hs₂ := (hK _ ((hs.trans hr).step trivial hstep)).1
      exact World.rel_of_version hrefl hs₂ (Nat.le_succ s₁.past.length)
        (P.version_commit s₁.version_length tx out) (version_made s₁.toWorld tx out)
    | begin | next | reject | abort | tick => exact hrefl _

/-- **What every ended call leaves behind.**  A property of a record that later
versions cannot take away, and that holds when the call ends, holds of all records. -/
theorem records_hold {Q : World Db Write Req Err Out → Finished Write Req Err Out → Prop}
    (hkeep : ∀ {w w' f}, (∀ n db, w.version n = some db → w'.version n = some db) →
      Q w f → Q w' f) (hK : Holds P db J B)
    (hcommit : ∀ {w tx locked out}, J w → B w tx → tx.stmt w locked = .commit out →
      Q (P.commit w tx out) (tx.finish (w.past.length + 1) (.ok out)))
    (hreject : ∀ {w tx locked err}, J w → B w tx → tx.stmt w locked = .fail err →
      Q (P.reject w tx err) (tx.finish w.past.length (.error err))) :
    Holds P db (fun w => ∀ f ∈ w.hist, Q w f) (fun _ _ => True) := by
  refine Outline.holds (J := J) (B := B) ?_ hK (by simp [World.init])
  refine ⟨fun {w w'} hq h f hf => ?_, fun _ _ => trivial, fun _ _ _ => trivial,
    fun _ _ _ _ _ => trivial, ?_, fun _ _ _ _ _ _ _ _ => trivial, ?_⟩
  · rw [hq.hist] at hf
    exact hkeep (fun n db hv => by rw [hq.version, hv]) (h f hf)
  · intro w tx locked out hJ hB h _ hs _ f hf
    rcases mem_append.1 hf with hf | hf
    · exact hkeep (fun n db hv => P.version_commit hv tx out) (h f hf)
    · rw [mem_singleton.1 hf]
      exact hcommit hJ hB hs
  · intro w tx locked err hJ hB h _ hs f hf
    rcases mem_append.1 hf with hf | hf
    · exact hkeep (w := w) (fun n db hv => hv) (h f hf)
    · rw [mem_singleton.1 hf]
      exact hreject hJ hB hs

omit [DecidableEq Key] in
theorem version_commit_of_le {n : ℕ} (h : n ≤ w.past.length) (tx : P.Tx) (out : Out) :
    (P.commit w tx out).version n = w.version n := by
  exact getElem?_append_left (by simp; omega)

/-- **Every version is made by a call.**  A relation that every commit makes good between the
version it finds and the one it leaves holds between any two in a row, for the call that
made the second. -/
theorem steps_hold {R : Db → Db → Finished Write Req Err Out → Prop} (hK : Holds P db J B)
    (hcommit : ∀ {w tx locked out}, J w → B w tx → tx.stmt w locked = .commit out →
      R w.db (tx.see w.db) (tx.finish (w.past.length + 1) (.ok out))) :
    Holds P db (fun w => ∀ n a b, w.version n = some a → w.version (n + 1) = some b →
      ∃ f ∈ w.hist, f.closed = n + 1 ∧ R a b f) (fun _ _ => True) := by
  refine Outline.holds (J := J) (B := B) ?_ hK fun n a b _ hb => ?_
  · refine ⟨fun {w w'} hq h n a b ha hb => ?_, fun _ _ => trivial, fun _ _ _ => trivial,
      fun _ _ _ _ _ => trivial, ?_, fun _ _ _ _ _ _ _ _ => trivial, ?_⟩
    · rw [hq.version] at ha hb
      rw [hq.hist]
      exact h n a b ha hb
    · intro w tx locked out hJ hB h _ hs _ n a b ha hb
      rcases Nat.lt_or_ge n w.past.length with hn | hn
      · rw [version_commit_of_le (Nat.le_of_lt hn)] at ha
        rw [version_commit_of_le hn] at hb
        obtain ⟨f, hf, hclosed, hR⟩ := h n a b ha hb
        exact ⟨f, mem_append_left _ hf, hclosed, hR⟩
      · obtain ⟨hlen, -⟩ := List.getElem?_eq_some_iff.1 hb
        simp only [past_commit, length_append, length_singleton] at hlen
        obtain rfl : n = w.past.length := by omega
        rw [version_commit_of_le (Nat.le_refl _), World.version_length] at ha
        rw [version_made] at hb
        cases ha
        cases hb
        exact ⟨_, mem_append_right _ (mem_singleton_self _), rfl, hcommit hJ hB hs⟩
    · intro w tx locked err _ _ h _ _ n a b ha hb
      obtain ⟨f, hf, hrest⟩ := h n a b ha hb
      exact ⟨f, mem_append_left _ hf, hrest⟩
  · simp [World.version, World.init] at hb

end Program

end ReadCommitted
