import Mathlib.Data.List.FinRange
import RedcodeIm.Ios.EventDeduplicator
import RedcodeIm.Lib.Recent

/-!
# Repeated events are dropped, and so are others

The key of an event is made of its type and of a few of its fields.  Two edits of a message have one
key, and so have an edit and its deletion; to pin a message twice, to add a reaction twice, or to
read a message twice makes two events with one key each.

* `Touched`, `touches` — what the keys are about.
* `DropsOnlyRepeats` — some delivery of every push is accepted, and a message is not accepted a
  second time soon after.
* `drops_only_repeats` — so it is just if no two of the pushes are about the same.
* `second_edit_dropped` — the second edit of a message never gets through.
-/

namespace RedcodeIm.Ios

open WebSocketEventDeduplicator List Recent

/-! ## What a push is about -/

/-- What the key of an event tells of it. -/
inductive Touched where
  | sent (messageId : Uuid)
  /-- An edit or a deletion. -/
  | changed (roomId messageId : Uuid)
  | pinned (roomId messageId : Uuid) (isPinned : Bool)
  | reacted (roomId messageId userId : Uuid) (reactionKey : String) (action : ReactionAction)
  | readBy (roomId messageId readerId : Uuid)
  deriving DecidableEq

namespace MessageOperation

/-- What the pushes of an operation are about. -/
def touches : MessageOperation → List Touched
  | .send data => [.sent data.id]
  | .edit roomId messageId _ _ => [.changed roomId messageId]
  | .delete roomId messageId _ pinned =>
    (if pinned then [.pinned roomId messageId false] else []) ++ [.changed roomId messageId]
  | .pin roomId messageId _ _ => [.pinned roomId messageId true]
  | .unpin roomId messageId => [.pinned roomId messageId false]
  | .addReaction roomId messageId userId reactionKey =>
    if reactionKey ∈ allowedReactionKeys then
      [.reacted roomId messageId userId reactionKey .add]
    else []
  | .removeReaction roomId messageId userId reactionKey =>
    if reactionKey ∈ allowedReactionKeys then
      [.reacted roomId messageId userId reactionKey .remove]
    else []
  | .markRead data => [.readBy data.roomId data.messageId data.readerId]

end MessageOperation

open MessageOperation

namespace Touched

/-- The identifiers in it. -/
def ids : Touched → List Uuid
  | .sent messageId => [messageId]
  | .changed roomId messageId => [roomId, messageId]
  | .pinned roomId messageId _ => [roomId, messageId]
  | .reacted roomId messageId userId _ _ => [roomId, messageId, userId]
  | .readBy roomId messageId readerId => [roomId, messageId, readerId]

variable (c : Codec)

/-- The parts of the key. -/
def parts : Touched → List String
  | .sent messageId => ["message", c.uuidText messageId]
  | .changed roomId messageId => ["message_update", c.uuidText roomId, c.uuidText messageId]
  | .pinned roomId messageId isPinned =>
    ["pin_update", c.uuidText roomId, c.uuidText messageId, if isPinned then "true" else "false"]
  | .reacted roomId messageId userId reactionKey action =>
    ["reaction_update", c.uuidText roomId, c.uuidText messageId, reactionKey, c.uuidText userId,
      action.display]
  | .readBy roomId messageId readerId =>
    ["message_read", c.uuidText roomId, c.uuidText messageId, c.uuidText readerId]

def key (touched : Touched) : String := ":".intercalate (touched.parts c)

end Touched

/-- The text of an identifier can be read back, and has no colons. -/
def PlainUuid (c : Codec) (u : Uuid) : Prop := c.ReadsUuid u ∧ ':' ∉ (c.uuidText u).toList

/-! ## The claim -/

section

variable (numberText : NumberText) (c : Codec)

/-- The keys of the deliveries, other than that of a push. -/
def otherKeys {n : ℕ} (push : Fin n → ServerPush) (deliveries : List (Fin n)) (i : Fin n) :
    Finset String :=
  (deliveries.filterMap fun j => pushKey numberText c (push j)).toFinset.filter
    fun key => pushKey numberText c (push i) ≠ some key

/-- Of every push that is delivered some delivery is accepted, and a message whose second delivery
follows the first within as many other keys as the filter remembers is not accepted again. -/
structure DropsOnlyRepeats (pushes : List ServerPush) : Prop where
  every : ∀ (capacity : ℤ) (deliveries : List (Fin pushes.length)), (∀ i, i ∈ deliveries) →
    ∀ i, i ∈ accepted numberText c pushes.get (ofCapacity capacity) deliveries
  repeated : ∀ (capacity : ℤ) (before between : List (Fin pushes.length)) (i : Fin pushes.length)
    (data : CrossNodeMessage), pushes.get i = .message data → i ∉ before →
    (otherKeys numberText c pushes.get between i).card < max 1 capacity →
    (offer numberText c
      (feed numberText c pushes.get (ofCapacity capacity) (before ++ i :: between))
      (pushes.get i)).1 = false

end

/-! ## The keys -/

/-- Texts without colons are read off what they are joined to. -/
theorem intercalate_inj {xs ys : List String} (hxs : ∀ x ∈ xs, ':' ∉ x.toList)
    (hys : ∀ y ∈ ys, ':' ∉ y.toList) (hxs' : xs ≠ []) (hys' : ys ≠ [])
    (h : ":".intercalate xs = ":".intercalate ys) : xs = ys := by
  have hsplit : ∀ {zs : List String}, (∀ z ∈ zs, ':' ∉ z.toList) → zs ≠ [] →
      (":".intercalate zs).toList.splitOn ':' = zs.map String.toList := by
    intro zs hzs hzs'
    rw [String.toList_intercalate]
    refine splitOn_intercalate ':' (fun l hl => ?_)
      (fun hnil => hzs' (map_eq_nil_iff.1 hnil))
    obtain ⟨z, hz, rfl⟩ := mem_map.1 hl
    exact hzs z hz
  have hmap : xs.map String.toList = ys.map String.toList := by
    rw [← hsplit hxs hxs', ← hsplit hys hys', h]
  exact map_injective_iff.2 (fun _ _ => String.toList_inj.1) hmap

section

variable {c : Codec} {numberText : NumberText} {u v : Uuid} {t t' : Touched}

theorem PlainUuid.inj (hu : PlainUuid c u) (hv : PlainUuid c v) (h : c.uuidText u = c.uuidText v) :
    u = v :=
  Except.ok.inj (hu.1.2.symm.trans ((congrArg c.parseUuid h).trans hv.1.2))

theorem PlainUuid.nonempty (hu : PlainUuid c u) : (c.uuidText u).isEmpty = false := by
  by_contra h
  have hempty : c.uuidText u = "" := String.isEmpty_iff.1 (by simpa using h)
  have hblank := hu.1.1
  rw [hempty] at hblank
  exact absurd hblank (by decide)

/-- The identifiers are plain, and the reaction is an allowed one. -/
def Touched.Plain (c : Codec) (t : Touched) : Prop :=
  (∀ u ∈ t.ids, PlainUuid c u) ∧ ∀ r m u k a, t = .reacted r m u k a → k ∈ allowedReactionKeys

theorem allowed_plain {k : String} (h : k ∈ allowedReactionKeys) :
    ':' ∉ k.toList ∧ k.isEmpty = false := by
  have hall : ∀ k ∈ allowedReactionKeys, ':' ∉ k.toList ∧ k.isEmpty = false := by decide
  exact hall k h

theorem Touched.parts_plain (h : t.Plain c) : ∀ part ∈ t.parts c, ':' ∉ part.toList := by
  obtain ⟨hids, hallowed⟩ := h
  cases t with
  | pinned r m b => cases b <;> simp_all [Touched.parts, Touched.ids, PlainUuid]
  | reacted r m u k a =>
    have hk := allowed_plain (hallowed r m u k a rfl)
    cases a <;> simp_all [Touched.parts, Touched.ids, PlainUuid, ReactionAction.display]
  | _ => simp_all [Touched.parts, Touched.ids, PlainUuid]

theorem Touched.parts_inj (h : t.Plain c) (h' : t'.Plain c) (heq : t.parts c = t'.parts c) :
    t = t' := by
  have hinj : ∀ u ∈ t.ids, ∀ v ∈ t'.ids, c.uuidText u = c.uuidText v → u = v :=
    fun u hu v hv => (h.1 u hu).inj (h'.1 v hv)
  -- The first part tells the kinds apart.
  cases t with
  | sent m =>
    cases t' with
    | sent m' => simp_all [Touched.parts, Touched.ids]
    | _ => simp [Touched.parts] at heq
  | changed r m =>
    cases t' with
    | changed r' m' => simp_all [Touched.parts, Touched.ids]
    | _ => simp [Touched.parts] at heq
  | pinned r m b =>
    cases t' with
    | pinned r' m' b' => cases b <;> cases b' <;> simp_all [Touched.parts, Touched.ids]
    | _ => simp [Touched.parts] at heq
  | reacted r m u k a =>
    cases t' with
    | reacted r' m' u' k' a' =>
      cases a <;> cases a' <;> simp_all [Touched.parts, Touched.ids, ReactionAction.display]
    | _ => simp [Touched.parts] at heq
  | readBy r m u =>
    cases t' with
    | readBy r' m' u' => simp_all [Touched.parts, Touched.ids]
    | _ => simp [Touched.parts] at heq

theorem Touched.key_inj (h : t.Plain c) (h' : t'.Plain c) (heq : t.key c = t'.key c) : t = t' := by
  refine parts_inj h h' (intercalate_inj (parts_plain h) (parts_plain h') ?_ ?_ heq)
  · cases t <;> exact cons_ne_nil _ _
  · cases t' <;> exact cons_ne_nil _ _

/-! ## The keys of the pushes -/

theorem joinedKey_some {parts : List String} (h : ∀ part ∈ parts, part.isEmpty = false) :
    WebSocketServerEvent.joinedKey (parts.map some) = some (":".intercalate parts) := by
  have hmap : (parts.map some).mapM
      (fun (part : Option String) => part.filter fun value => !value.isEmpty) = some parts := by
    induction parts with
    | nil => rfl
    | cons part parts ih =>
      have htail := ih fun p hp => h p (.tail _ hp)
      rw [map_cons, mapM_cons, htail, Option.filter_some, h part (.head _)]
      rfl
  unfold WebSocketServerEvent.joinedKey
  rw [hmap]
  rfl

theorem Touched.parts_nonempty (h : t.Plain c) : ∀ part ∈ t.parts c, part.isEmpty = false := by
  obtain ⟨hids, hallowed⟩ := h
  have hne : ∀ u ∈ t.ids, (c.uuidText u).isEmpty = false := fun u hu => (hids u hu).nonempty
  cases t with
  | pinned r m b => cases b <;> simp_all [Touched.parts, Touched.ids]
  | reacted r m u k a =>
    have hk := (allowed_plain (hallowed r m u k a rfl)).2
    cases a <;> simp_all [Touched.parts, Touched.ids, ReactionAction.display]
  | _ => simp_all [Touched.parts, Touched.ids]

/-- A push about something. -/
inductive About : ServerPush → Touched → Prop where
  | sent (data : CrossNodeMessage) : About (.message data) (.sent data.id)
  | changed (data : MessageUpdatePayload) :
      About (.messageUpdate data) (.changed data.roomId data.messageId)
  | pinned (data : PinUpdatePayload) {messageId : Uuid} (h : data.messageId = some messageId) :
      About (.pinUpdate data) (.pinned data.roomId messageId data.isPinned)
  | reacted (data : ReactionUpdatePayload) :
      About (.reactionUpdate data)
        (.reacted data.roomId data.messageId data.userId data.reactionKey data.action)
  | readBy (data : ReadReceiptEvent) :
      About (.messageRead data) (.readBy data.roomId data.messageId data.readerId)

theorem pushKey_about {push : ServerPush} (h : About push t) (ht : t.Plain c) :
    pushKey numberText c push = some (t.key c) := by
  have hjoined := joinedKey_some (Touched.parts_nonempty ht)
  cases h with
  | sent data => rfl
  | pinned data hid =>
    obtain ⟨roomId, messageId, pinnedBy, pinnedAt, isPinned⟩ := data
    obtain rfl : messageId = some _ := hid
    exact hjoined
  | _ => exact hjoined

theorem reacted_about (r m u : Uuid) (k : String) (a : ReactionAction) :
    List.Forall₂ About (reacted r m u k a)
      (if k ∈ allowedReactionKeys then [.reacted r m u k a] else []) := by
  unfold reacted
  split
  · exact .cons (About.reacted _) .nil
  · exact .nil

theorem touches_about (op : MessageOperation) : List.Forall₂ About op.pushes op.touches := by
  cases op with
  | send data => exact .cons (.sent data) .nil
  | edit r m editedAt content => exact .cons (.changed _) .nil
  | delete r m deletedAt pinned =>
    cases pinned with
    | false => exact .cons (.changed _) .nil
    | true => exact .cons (.pinned _ rfl) (.cons (.changed _) .nil)
  | addReaction r m u k | removeReaction r m u k => exact reacted_about r m u k _
  | markRead data => exact .cons (.readBy data) .nil
  | _ => exact .cons (.pinned _ rfl) .nil

/-- The server takes no other reactions. -/
theorem touches_allowed {op : MessageOperation} {r m u : Uuid} {k : String} {a : ReactionAction}
    (h : .reacted r m u k a ∈ op.touches) : k ∈ allowedReactionKeys := by
  cases op with
  | addReaction | removeReaction =>
    simp only [touches] at h
    split at h
    · rename_i hk
      obtain ⟨-, -, -, rfl, -⟩ := Touched.reacted.inj (mem_singleton.1 h)
      exact hk
    · cases h
  | delete r' m' deletedAt pinned => cases pinned <;> simp [touches] at h
  | _ => simp [touches] at h

theorem touches_about_flatMap (ops : List MessageOperation) :
    List.Forall₂ About (ops.flatMap (·.pushes)) (ops.flatMap (·.touches)) := by
  induction ops with
  | nil => exact .nil
  | cons op ops ih => exact rel_append (touches_about op) ih

/-! ## The filter -/

variable {d : WebSocketEventDeduplicator} {push : ServerPush} {key : String}

/-- What the filter remembers. -/
structure Linked (d : WebSocketEventDeduplicator) : Prop where
  capacity : 1 ≤ d.capacity
  seen : ∀ key, key ∈ d.seenKeys ↔ key ∈ d.orderedKeys
  nodup : d.orderedKeys.Nodup

theorem linked_ofCapacity (capacity : ℤ) : Linked (ofCapacity capacity) :=
  ⟨le_max_left _ _, (by simp [ofCapacity]), nodup_nil⟩

theorem evict_spec {capacity : ℤ} (hcapacity : 1 ≤ capacity) {orderedKeys : List String}
    {seenKeys : Finset String} (hseen : ∀ key, key ∈ seenKeys ↔ key ∈ orderedKeys)
    (hnodup : orderedKeys.Nodup) :
    (evict capacity orderedKeys seenKeys).1 =
        orderedKeys.drop (orderedKeys.length - capacity.toNat) ∧
      ∀ key, key ∈ (evict capacity orderedKeys seenKeys).2 ↔
        key ∈ (evict capacity orderedKeys seenKeys).1 := by
  induction orderedKeys generalizing seenKeys with
  | nil => exact ⟨drop_nil.symm, hseen⟩
  | cons removed orderedKeys ih =>
    obtain ⟨hremoved, hnodup⟩ := nodup_cons.1 hnodup
    unfold evict
    split
    · rename_i hfull
      have hseen' : ∀ key, key ∈ seenKeys.erase removed ↔ key ∈ orderedKeys := by
        intro key
        rw [Finset.mem_erase, hseen, mem_cons]
        constructor
        · rintro ⟨hne, rfl | hmem⟩
          · exact absurd rfl hne
          · exact hmem
        · exact fun hmem => ⟨fun heq => hremoved (heq ▸ hmem), .inr hmem⟩
      obtain ⟨hkeys, hmem⟩ := ih hseen' hnodup
      refine ⟨?_, hmem⟩
      have hlength : (removed :: orderedKeys).length - capacity.toNat =
          (orderedKeys.length - capacity.toNat) + 1 := by
        rw [length_cons]
        omega
      rw [hkeys, hlength, drop_succ_cons]
    · rename_i hroom
      have hzero : (removed :: orderedKeys).length - capacity.toNat = 0 := by
        rw [length_cons]
        omega
      exact ⟨by rw [hzero, drop_zero], hseen⟩

/-- The filter lets the keys through that are not among the last ones. -/
theorem offer_spec (hd : Linked d) (hkey : pushKey numberText c push = some key) :
    (d.offer numberText c push).1 = (accept d.capacity.toNat d.orderedKeys key).1 ∧
      (d.offer numberText c push).2.orderedKeys =
        (accept d.capacity.toNat d.orderedKeys key).2 ∧
      (d.offer numberText c push).2.capacity = d.capacity ∧
      Linked (d.offer numberText c push).2 := by
  obtain ⟨event, hevent, hkey⟩ := Option.bind_eq_some_iff.1 hkey
  unfold offer
  rw [hevent]
  unfold shouldAccept accept
  simp only [hkey, hd.seen]
  split
  · exact ⟨rfl, rfl, rfl, hd⟩
  · rename_i hnew
    have hnodup : (d.orderedKeys ++ [key]).Nodup := by
      refine nodup_append.2 ⟨hd.nodup, nodup_singleton key, ?_⟩
      intro a ha b hb hab
      obtain rfl := mem_singleton.1 hb
      exact hnew (hab ▸ ha)
    have hseen : ∀ k, k ∈ insert key d.seenKeys ↔ k ∈ d.orderedKeys ++ [key] := by
      intro k
      rw [Finset.mem_insert, hd.seen, mem_append, mem_singleton, or_comm]
    obtain ⟨hkeys, hmem⟩ := evict_spec hd.capacity hseen hnodup
    refine ⟨rfl, hkeys, rfl, hd.capacity, hmem, ?_⟩
    rw [hkeys]
    exact hnodup.sublist (drop_sublist _ _)

section

variable {n : ℕ} {pushes : Fin n → ServerPush} {keys : Fin n → String} {deliveries : List (Fin n)}
  {i : Fin n}

variable (hkeys : ∀ i, pushKey numberText c (pushes i) = some (keys i))

include hkeys

theorem feed_spec (hd : Linked d) :
    (feed numberText c pushes d deliveries).orderedKeys =
        Recent.after d.capacity.toNat d.orderedKeys (deliveries.map keys) ∧
      (feed numberText c pushes d deliveries).capacity = d.capacity ∧
      Linked (feed numberText c pushes d deliveries) := by
  induction deliveries generalizing d with
  | nil => exact ⟨rfl, rfl, hd⟩
  | cons i deliveries ih =>
    obtain ⟨-, hordered, hcapacity, hlinked⟩ := offer_spec hd (hkeys i)
    obtain ⟨hordered', hcapacity', hlinked'⟩ := ih hlinked
    refine ⟨?_, hcapacity'.trans hcapacity, hlinked'⟩
    rw [map_cons, after_cons, ← hordered, ← hcapacity]
    exact hordered'

omit hkeys in
theorem accepted_cons {j : Fin n} : accepted numberText c pushes d (j :: deliveries) =
    if (d.offer numberText c (pushes j)).1 then
      j :: accepted numberText c pushes (d.offer numberText c (pushes j)).2 deliveries
    else accepted numberText c pushes (d.offer numberText c (pushes j)).2 deliveries := rfl

omit hkeys in
/-- A push is accepted just if it is at one of its deliveries. -/
theorem mem_accepted : i ∈ accepted numberText c pushes d deliveries ↔
    ∃ before after, deliveries = before ++ i :: after ∧
      (offer numberText c (feed numberText c pushes d before) (pushes i)).1 = true := by
  induction deliveries generalizing d with
  | nil => simp [accepted]
  | cons j deliveries ih =>
    have hstep : i ∈ accepted numberText c pushes d (j :: deliveries) ↔
        (j = i ∧ (d.offer numberText c (pushes i)).1 = true) ∨
          i ∈ accepted numberText c pushes (d.offer numberText c (pushes j)).2 deliveries := by
      rw [accepted_cons]
      cases haccept : (d.offer numberText c (pushes j)).1 with
      | false =>
        refine ⟨.inr, ?_⟩
        rintro (⟨rfl, htrue⟩ | hmem)
        · rw [haccept] at htrue
          cases htrue
        · exact hmem
      | true =>
        simp only [if_true, mem_cons]
        constructor
        · rintro (rfl | hmem)
          · exact .inl ⟨rfl, haccept⟩
          · exact .inr hmem
        · rintro (⟨rfl, -⟩ | hmem)
          · exact .inl rfl
          · exact .inr hmem
    rw [hstep, ih]
    constructor
    · rintro (⟨rfl, haccept⟩ | ⟨before, after, rfl, haccept⟩)
      · exact ⟨[], deliveries, rfl, haccept⟩
      · exact ⟨j :: before, after, rfl, haccept⟩
    · rintro ⟨before, after, heq, haccept⟩
      cases before with
      | nil =>
        cases heq
        exact .inl ⟨rfl, haccept⟩
      | cons k before =>
        cases heq
        exact .inr ⟨before, after, rfl, haccept⟩

/-- A push is accepted where its key is not remembered. -/
theorem accepts_iff {capacity : ℤ} :
    (offer numberText c (feed numberText c pushes (ofCapacity capacity) deliveries)
        (pushes i)).1 = true ↔
      keys i ∉ Recent.after (max 1 capacity).toNat [] (deliveries.map keys) := by
  obtain ⟨hordered, hcapacity, hlinked⟩ := feed_spec hkeys (linked_ofCapacity capacity)
  obtain ⟨haccept, -⟩ := offer_spec hlinked (hkeys i)
  rw [haccept, accept_iff, hordered]
  rfl

/-- Where two pushes have one key, and one is delivered before the other, the other never gets
through. -/
theorem not_every {i j : Fin n} (hij : i < j) (heq : keys i = keys j) :
    j ∉ accepted numberText c pushes (ofCapacity n) (finRange n) := by
  intro hmem
  obtain ⟨before, after, hdeliveries, haccept⟩ := mem_accepted.1 hmem
  have hfew : before.length ≤ (max 1 (n : ℤ)).toNat := by
    have hlength := congrArg length hdeliveries
    rw [length_finRange, length_append] at hlength
    omega
  -- The deliveries are in the order of the pushes.
  have hbefore : i ∈ before := by
    have hi := mem_finRange i
    have hpairwise := pairwise_lt_finRange n
    rw [hdeliveries] at hi hpairwise
    rcases mem_append.1 hi with hi | hi
    · exact hi
    · rcases mem_cons.1 hi with rfl | hi
      · exact absurd hij (lt_irrefl _)
      · have hlt := (pairwise_cons.1 (pairwise_append.1 hpairwise).2.1).1 i hi
        exact absurd hij (not_lt_of_gt hlt)
  refine (accepts_iff hkeys).1 haccept ((mem_after_of_le ?_).2 (.inr ?_))
  · simpa using hfew
  · exact mem_map.2 ⟨i, hbefore, heq⟩

theorem otherKeys_eq :
    otherKeys numberText c pushes deliveries i = (deliveries.map keys).toFinset.erase (keys i) := by
  have hmap : deliveries.filterMap (fun j => pushKey numberText c (pushes j)) =
      deliveries.map keys := by
    rw [funext hkeys]
    exact filterMap_eq_map_iff_forall_eq_some.2 fun _ _ => rfl
  unfold otherKeys
  rw [hmap, hkeys]
  ext key
  simp only [Finset.mem_filter, Finset.mem_erase, ne_eq, Option.some.injEq, eq_comm, and_comm]

end

/-- Only repeats are dropped just if no two of the pushes have one key. -/
theorem dropsOnlyRepeats_iff {pushes : List ServerPush} {keys : Fin pushes.length → String}
    (hkeys : ∀ i, pushKey numberText c (pushes.get i) = some (keys i)) :
    DropsOnlyRepeats numberText c pushes ↔ Function.Injective keys := by
  constructor
  · intro h i j heq
    by_contra hne
    have hevery := h.every pushes.length (finRange _) mem_finRange
    rcases lt_or_gt_of_ne hne with hlt | hgt
    · exact not_every hkeys hlt heq (hevery j)
    · exact not_every hkeys hgt heq.symm (hevery i)
  · intro hinj
    -- A key is remembered only where its own push has been delivered.
    have hfresh : ∀ {capacity : ℤ} {before : List (Fin pushes.length)} {i : Fin pushes.length},
        i ∉ before → keys i ∉ Recent.after (max 1 capacity).toNat [] (before.map keys) := by
      intro capacity before i hnew hmem
      rcases mem_of_mem_after hmem with hmem | hmem
      · cases hmem
      · obtain ⟨j, hj, heq⟩ := mem_map.1 hmem
        exact hnew (hinj heq ▸ hj)
    refine ⟨fun capacity deliveries hall i => ?_,
      fun capacity before between i data _ hnew hfew => ?_⟩
    · obtain ⟨before, after, rfl, hnew⟩ := eq_append_cons_of_mem (hall i)
      exact mem_accepted.2 ⟨before, after, rfl, (accepts_iff hkeys).2 (hfresh hnew)⟩
    · rw [otherKeys_eq hkeys] at hfew
      refine Bool.eq_false_iff.2 fun haccept => (accepts_iff hkeys).1 haccept ?_
      rw [map_append, map_cons, after_append]
      exact mem_after (hfresh hnew) (by omega)

/-- **Only repeats are dropped, just if no two of the pushes are about the same**: no message is
edited twice, or edited and deleted; pinned, or unpinned, twice; no reaction added, or removed,
twice; and none is read twice by one reader. -/
theorem drops_only_repeats (numberText : NumberText) (c : Codec) (ops : List MessageOperation)
    (hplain : ∀ t ∈ ops.flatMap (·.touches), ∀ u ∈ t.ids, PlainUuid c u) :
    DropsOnlyRepeats numberText c (ops.flatMap (·.pushes)) ↔ (ops.flatMap (·.touches)).Nodup := by
  have hplain' : ∀ t ∈ ops.flatMap (·.touches), t.Plain c := by
    intro t ht
    refine ⟨hplain t ht, ?_⟩
    rintro r m u k a rfl
    obtain ⟨op, -, hop⟩ := mem_flatMap.1 ht
    exact touches_allowed hop
  obtain ⟨hlength, habout⟩ := forall₂_iff_get.1 (touches_about_flatMap ops)
  generalize ops.flatMap (·.pushes) = pushes at *
  generalize ops.flatMap (·.touches) = touched at *
  have hkeys : ∀ i : Fin pushes.length,
      pushKey numberText c (pushes.get i) = some ((touched.get (i.cast hlength)).key c) :=
    fun i => pushKey_about (habout i i.2 (hlength ▸ i.2)) (hplain' _ (get_mem ..))
  rw [dropsOnlyRepeats_iff hkeys, nodup_iff_injective_get]
  constructor
  · intro hinj i j heq
    have hcast := @hinj (i.cast hlength.symm) (j.cast hlength.symm) (congrArg (Touched.key c) heq)
    exact Fin.cast_injective _ hcast
  · intro hinj i j heq
    have hget := Touched.key_inj (hplain' _ (get_mem ..)) (hplain' _ (get_mem ..)) heq
    exact Fin.cast_injective hlength (hinj hget)

end

/-! ## Two edits -/

instance (c : Codec) (u : Uuid) : Decidable (PlainUuid c u) := inferInstanceAs (Decidable (_ ∧ _))

/-- A message is edited, pinned, unpinned, and gets a reaction that is taken back. -/
theorem drops_only_repeats_once :
    DropsOnlyRepeats (fun _ => "") sampleCodec
      (([.edit 7 1 none "a", .pin 7 1 2 0, .unpin 7 1, .addReaction 7 1 2 "👍",
        .removeReaction 7 1 2 "👍"] : List MessageOperation).flatMap (·.pushes)) :=
  (drops_only_repeats _ _ _ (by decide)).2 (by decide)

/-- The second edit of a message is taken for the first, for each delivery there may be. -/
theorem second_edit_dropped :
    ¬ ∀ (numberText : NumberText) (c : Codec) (ops : List MessageOperation),
      (∀ t ∈ ops.flatMap (·.touches), ∀ u ∈ t.ids, PlainUuid c u) →
      DropsOnlyRepeats numberText c (ops.flatMap (·.pushes)) := by
  intro h
  have hdrops := h (fun _ => "") sampleCodec [.edit 7 1 none "a", .edit 7 1 none "b"] (by decide)
  have hmem := hdrops.every 512 (finRange _) mem_finRange ⟨1, by decide⟩
  revert hmem
  decide +kernel

end RedcodeIm.Ios
