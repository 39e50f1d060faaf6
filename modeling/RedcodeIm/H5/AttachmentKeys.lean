import RedcodeIm.H5.MessageClient

/-!
# The keys of attachments stay in memory

Messages with the keys and the nonces of their attachments left out.

* `ChatMessage.hide` — a message without them; everything else can be told of it still.
* `hide_sanitize`, `saveMessages_hide` — nothing is left to leave out of what is stored.
* `decryptMessage_hide`, `settle_hide` — keys and nonces come from decryptions only.
* `hide_detailStmt`, `hide_chatStmt` — the stores do with a message what they do with any that
  differs from it in its keys only.
-/

namespace RedcodeIm.H5

open SortBy ChatMessage List
open Overlap (Next)

/-! ## What differs -/

def E2eeAttachmentPart.hide (part : E2eeAttachmentPart) : E2eeAttachmentPart :=
  { part with nonce := [], dek := [] }

def DecryptedPayload.hide : DecryptedPayload → DecryptedPayload
  | .text content => .text content
  | .attachment parts => .attachment (parts.map E2eeAttachmentPart.hide)

def Decrypted.hide (decrypted : Decrypted) : Decrypted :=
  { decrypted with payload := decrypted.payload.hide }

section

variable (J : PartsJson)

def hideJson (json : String) : String :=
  match J.parse json with
  | some parts => J.stringify (parts.map E2eeAttachmentPart.hide)
  | none => json

def hideRaw (raw : UnknownRecord) : UnknownRecord :=
  if (raw.lookup "e2ee_parts").any truthy then
    raw.map fun p => if p.1 = "e2ee_parts" then (p.1, hideJson J p.2) else p
  else raw

def ChatMessage.hide (message : ChatMessage) : ChatMessage :=
  { message with raw := message.raw.map (Option.map (hideRaw J)) }

end

variable {J : PartsJson}

/-! ## Objects -/

@[simp] theorem truthy_hideJson (json : String) : truthy (hideJson J json) = truthy json := by
  unfold hideJson
  split
  · rename_i parts h
    rw [J.truthy_of_parse (J.parse_stringify _), J.truthy_of_parse h]
  · rfl

theorem parse_hideJson (json : String) : J.parse (hideJson J json) =
    (J.parse json).map (map E2eeAttachmentPart.hide) := by
  unfold hideJson
  split
  · rename_i parts h
    rw [J.parse_stringify, h]
    rfl
  · rename_i h
    rw [h]
    rfl

theorem lookup_map_snd {α β : Type} {g : String × α → β} (l : List (String × α)) (k : String) :
    (l.map fun p => (p.1, g p)).lookup k = ((l.find? fun p => k == p.1).map g) := by
  induction l with
  | nil => rfl
  | cons p l ih =>
    rw [map_cons, lookup_cons, find?_cons]
    cases k == p.1
    · exact ih
    · rfl

theorem find_of_lookup {α : Type} (l : List (String × α)) (k : String) :
    (l.find? fun p => k == p.1) = (l.lookup k).map fun v => (k, v) := by
  induction l with
  | nil => rfl
  | cons p l ih =>
    rw [lookup_cons, find?_cons]
    cases h : k == p.1
    · exact ih
    · rw [eq_of_beq h]
      rfl

variable (raw : UnknownRecord) (name : String)

theorem lookup_hideRaw : (hideRaw J raw).lookup name =
    if name = "e2ee_parts" then (raw.lookup name).map (hideJson J) else raw.lookup name := by
  unfold hideRaw
  split
  · have hmap : (raw.map fun p => if p.1 = "e2ee_parts" then (p.1, hideJson J p.2) else p) =
        raw.map fun p => (p.1, if p.1 = "e2ee_parts" then hideJson J p.2 else p.2) := by
      refine map_congr_left fun p _ => ?_
      split <;> rfl
    rw [hmap, lookup_map_snd, find_of_lookup, Option.map_map]
    by_cases hname : name = "e2ee_parts"
    · rw [if_pos hname]
      congr 1
      funext json
      exact if_pos hname
    · rw [if_neg hname]
      refine (congrArg (Option.map · _) ?_).trans Option.map_id_apply
      funext json
      exact if_neg hname
  · rename_i hfalse
    by_cases hname : name = "e2ee_parts"
    · rw [if_pos hname]
      subst hname
      cases hlookup : raw.lookup "e2ee_parts" with
      | none => rfl
      | some json =>
        rw [hlookup] at hfalse
        have hnone : J.parse json = none := by
          cases hparse : J.parse json with
          | none => rfl
          | some parts => exact absurd (J.truthy_of_parse hparse) hfalse
        rw [Option.map_some]
        unfold hideJson
        rw [hnone]
    · rw [if_neg hname]

theorem keys_hideRaw : (hideRaw J raw).map Prod.fst = raw.map Prod.fst := by
  unfold hideRaw
  split
  · rw [map_map]
    refine map_congr_left fun p _ => ?_
    simp only [Function.comp_apply]
    split <;> rfl
  · rfl

theorem any_key_hideRaw :
    ((hideRaw J raw).any fun p => p.1 = name) = raw.any fun p => p.1 = name := by
  have hmap : ∀ l : UnknownRecord, (l.any fun p => p.1 = name) =
      (l.map Prod.fst).any fun k => k = name := fun l => by rw [any_map]; rfl
  rw [hmap, hmap, keys_hideRaw]

theorem lookup_set_self (json : String) : (raw.set name json).lookup name = some json := by
  unfold UnknownRecord.set
  split
  · rename_i hany
    induction raw with
    | nil => simp at hany
    | cons p raw ih =>
      rw [map_cons, lookup_cons]
      by_cases hp : p.1 = name
      · simp [hp]
      · have hany' : (raw.any fun p => p.1 = name) = true := by simpa [hp] using hany
        have hne : (name == p.1) = false := beq_false_of_ne fun heq => hp heq.symm
        simp only [hp, if_false, hne]
        exact ih hany'
  · rename_i hany
    induction raw with
    | nil => simp
    | cons p raw ih =>
      have hp : p.1 ≠ name := fun hp => hany (by simp [hp])
      have hany' : ¬(raw.any fun p => p.1 = name) = true := fun h => hany (by simp [h])
      have hne : (name == p.1) = false := beq_false_of_ne fun heq => hp heq.symm
      rw [cons_append, lookup_cons, hne]
      exact ih hany'

theorem lookup_set_ne {name other : String} (json : String) (h : other ≠ name) :
    (raw.set name json).lookup other = raw.lookup other := by
  have hne : (other == name) = false := beq_false_of_ne h
  unfold UnknownRecord.set
  split
  · rename_i hany
    clear hany
    induction raw with
    | nil => rfl
    | cons p raw ih =>
      rw [map_cons, lookup_cons, lookup_cons, ih]
      by_cases hp : p.1 = name
      · simp [hp, hne]
      · simp [hp]
  · rw [lookup_append, lookup_cons, hne]
    exact Option.or_none

/-- A property other than the parts is set. -/
theorem hideRaw_set_ne {name : String} (json : String) (h : name ≠ "e2ee_parts") :
    hideRaw J (raw.set name json) = (hideRaw J raw).set name json := by
  have hset : ∀ l : UnknownRecord, l.set name json =
      if l.any fun p => p.1 = name then l.map fun p => if p.1 = name then (name, json) else p
      else l ++ [(name, json)] := fun _ => rfl
  have hlookup := lookup_set_ne raw json h.symm
  rw [hset (hideRaw J raw), any_key_hideRaw]
  unfold hideRaw
  rw [hlookup]
  split
  · rw [hset]
    split
    · rw [map_map, map_map]
      refine map_congr_left fun p _ => ?_
      by_cases hp : p.1 = name
      · simp [hp, h]
      · by_cases hparts : p.1 = "e2ee_parts" <;> simp [hp, hparts, h.symm]
    · rw [map_append, map_singleton, if_neg h]
  · rfl

/-- The parts are set. -/
theorem hideRaw_set_parts {json : String} (h : truthy json = true) :
    hideRaw J (raw.set "e2ee_parts" json) = (hideRaw J raw).set "e2ee_parts" (hideJson J json) := by
  have hset : ∀ (l : UnknownRecord) (json : String), l.set "e2ee_parts" json =
      if l.any fun p => p.1 = "e2ee_parts" then
        l.map fun p => if p.1 = "e2ee_parts" then ("e2ee_parts", json) else p
      else l ++ [("e2ee_parts", json)] := fun _ _ => rfl
  have hleft : hideRaw J (raw.set "e2ee_parts" json) = (raw.set "e2ee_parts" json).map fun p =>
      if p.1 = "e2ee_parts" then (p.1, hideJson J p.2) else p := by
    unfold hideRaw
    rw [lookup_set_self, if_pos]
    exact h
  rw [hleft, hset, hset, any_key_hideRaw]
  split
  · unfold hideRaw
    split
    · rw [map_map, map_map]
      refine map_congr_left fun p _ => ?_
      by_cases hp : p.1 = "e2ee_parts" <;> simp [hp]
    · rw [map_map]
      refine map_congr_left fun p _ => ?_
      by_cases hp : p.1 = "e2ee_parts" <;> simp [hp]
  · rename_i hany
    have hnone : ∀ p ∈ raw, p.1 ≠ "e2ee_parts" := fun p hp heq =>
      hany (any_eq_true.2 ⟨p, hp, decide_eq_true heq⟩)
    have hsame : ∀ l : UnknownRecord, (∀ p ∈ l, p.1 ≠ "e2ee_parts") →
        (l.map fun p => if p.1 = "e2ee_parts" then (p.1, hideJson J p.2) else p) = l := by
      intro l hl
      refine (map_congr_left fun p hp => ?_).trans (map_id _)
      exact if_neg (hl p hp)
    have hraw : hideRaw J raw = raw := by
      unfold hideRaw
      split
      · exact hsame raw hnone
      · rfl
    rw [map_append, hsame raw hnone, hraw]
    rfl

/-! ## Messages -/

section

variable {m message pending previous failed : ChatMessage} {messages cached : List ChatMessage}

@[simp] theorem hide_id : (m.hide J).id = m.id := rfl
@[simp] theorem hide_roomId : (m.hide J).roomId = m.roomId := rfl
@[simp] theorem hide_senderId : (m.hide J).senderId = m.senderId := rfl
@[simp] theorem hide_attachments : (m.hide J).attachments = m.attachments := rfl
@[simp] theorem hide_encryptedContent : (m.hide J).encryptedContent = m.encryptedContent := rfl
@[simp] theorem hide_isEncrypted : (m.hide J).isEncrypted = m.isEncrypted := rfl
@[simp] theorem hide_canDecrypt : canDecrypt (m.hide J) = canDecrypt m := rfl

@[simp] theorem hide_failed : (m.hide J).e2eeDecryptionFailed = m.e2eeDecryptionFailed := rfl

theorem value_raw_hide : (m.hide J).raw.value = m.raw.value.map (hideRaw J) := by
  show Maybe.value (m.raw.map _) = _
  rcases m.raw with _ | _ | raw <;> rfl

@[simp] theorem hide_isE2eePending : isE2eePending (m.hide J) = isE2eePending m := by
  unfold isE2eePending
  rw [value_raw_hide, Option.any_map]
  congr 1
  funext raw
  simp only [lookup_hideRaw]
  rfl

theorem e2eePartsOf_hide : e2eePartsOf J (m.hide J) =
    (e2eePartsOf J m).map (map E2eeAttachmentPart.hide) := by
  unfold e2eePartsOf
  rw [value_raw_hide]
  cases m.raw.value with
  | none => rfl
  | some raw =>
    show ((hideRaw J raw).lookup "e2ee_parts").bind J.parse = _
    rw [lookup_hideRaw, if_pos rfl]
    show _ = Option.map _ ((raw.lookup "e2ee_parts").bind J.parse)
    cases raw.lookup "e2ee_parts" with
    | none => rfl
    | some json => exact parse_hideJson json

theorem spread_hide : (previous.hide J).spread (m.hide J) = (previous.spread m).hide J := by
  unfold hide spread
  congr 1
  show (m.raw.map _).or (previous.raw.map _) = (m.raw.or previous.raw).map _
  cases m.raw <;> rfl

theorem onto_hide (o : Option ChatMessage) :
    (m.hide J).onto (o.map (hide J)) = (m.onto o).hide J := by
  cases o with
  | none => rfl
  | some previous => exact spread_hide

/-- A list of messages, in the order of a key that can be told without the keys. -/
theorem sortBy_hide {κ : Type} [LinearOrder κ] {key : ChatMessage → κ}
    (hkey : ∀ m : ChatMessage, key (m.hide J) = key m) :
    sortBy key (messages.map (hide J)) =
      (sortBy key messages).map (hide J) := by
  rw [sortBy_map]
  congr 2
  funext m
  exact hkey m

variable {p : ChatMessage → Bool}

theorem find?_hide (hp : ∀ m : ChatMessage, p (m.hide J) = p m) :
    (messages.map (hide J)).find? p = (messages.find? p).map (hide J) := by
  rw [find?_map]
  congr 2
  funext m
  exact hp m

theorem filter_hide (hp : ∀ m : ChatMessage, p (m.hide J) = p m) :
    (messages.map (hide J)).filter p =
      (messages.filter p).map (hide J) := by
  rw [filter_map]
  congr 2
  funext m
  exact hp m

theorem any_hide (hp : ∀ m : ChatMessage, p (m.hide J) = p m) :
    (messages.map (hide J)).any p = messages.any p := by
  rw [any_map]
  congr 1
  funext m
  exact hp m

/-! ### Merging -/

def ById.hide (J : PartsJson) (byId : ById) : ById :=
  byId.mapRows (ChatMessage.hide J) fun _ => rfl

theorem byIdOf_hide : byIdOf (messages.map (hide J)) = (byIdOf messages).hide J := by
  have hfold : ∀ (l : List ChatMessage) (byId : ById),
      (l.map (hide J)).foldl
        (fun byId message => if message.id = "" then byId else byId.put message) (byId.hide J) =
      (l.foldl (fun byId message => if message.id = "" then byId else byId.put message)
        byId).hide J := by
    intro l
    induction l with
    | nil => exact fun _ => rfl
    | cons m l ih =>
      intro byId
      rw [map_cons, foldl_cons, foldl_cons, ← ih]
      congr 1
      rw [hide_id]
      split
      · rfl
      · exact Table.put_mapRows byId m
  exact hfold messages Table.empty

theorem absorb_hide (byId : ById) : (byId.hide J).absorb (m.hide J) = (byId.absorb m).hide J := by
  by_cases hid : m.id = ""
  · rw [absorb_of_id_eq hid, absorb_of_id_eq (m := m.hide J) hid]
  · have hsettle : (byId.hide J).settle (m.hide J) = (byId.settle m).hide J :=
      Table.filter_mapRows _ _
    rw [absorb_of_id_ne hid, absorb_of_id_ne (m := m.hide J) hid, hsettle]
    have hget : ((byId.settle m).hide J).get (m.hide J).id =
        ((byId.settle m).get m.id).map (ChatMessage.hide J) := Table.get_mapRows _ _
    rw [hget, onto_hide]
    exact Table.put_mapRows _ _

theorem mergeMessages_hide :
    mergeMessages (messages.map (hide J)) (cached.map (hide J)) =
      (mergeMessages messages cached).map (hide J) := by
  unfold mergeMessages
  have hfold : ∀ (l : List ChatMessage) (byId : ById),
      (l.map (hide J)).foldl ById.absorb (byId.hide J) =
        (l.foldl ById.absorb byId).hide J := by
    intro l
    induction l with
    | nil => exact fun _ => rfl
    | cons m l ih =>
      intro byId
      rw [map_cons, foldl_cons, foldl_cons, absorb_hide, ih]
  rw [byIdOf_hide, hfold]
  exact sortBy_hide fun _ => rfl

theorem modify_hide (n : ℕ) :
    (messages.map (hide J)).modify n (·.spread (m.hide J)) =
      (messages.modify n (·.spread m)).map (hide J) := by
  induction messages generalizing n with
  | nil => cases n <;> rfl
  | cons x messages ih =>
    cases n with
    | zero =>
      show (x.hide J).spread (m.hide J) :: messages.map _ = (x.spread m).hide J :: messages.map _
      rw [spread_hide]
    | succ n => exact congrArg ((x.hide J) :: ·) (ih n)

theorem mergeMessage_hide :
    mergeMessage (messages.map (hide J)) (m.hide J) =
      (mergeMessage messages m).map (hide J) := by
  unfold mergeMessage
  rw [any_hide fun _ => rfl, findIdx_map, ← sortBy_hide fun _ => rfl]
  congr 1
  by_cases hany : messages.any (fun item => item.id = m.id) = true
  · rw [if_pos hany]
    exact (if_pos hany).trans (modify_hide _)
  · rw [if_neg hany, map_append]
    exact if_neg hany

/-! ### Storing -/

def StoredMessage.hide (J : PartsJson) (row : StoredMessage) : StoredMessage :=
  { row with payload := row.payload.hide J }

def MessageDb.hide (J : PartsJson) (db : MessageDb) : MessageDb :=
  db.mapRows (StoredMessage.hide J) fun _ => rfl

/-- The message has parts that are not stored. -/
def hasParts (m : ChatMessage) : Prop :=
  ∃ raw, m.raw = some (some raw) ∧ (raw.lookup "e2ee_parts").any truthy = true

theorem value_eq_some {α : Type} {p : Maybe α} {v : α} : p.value = some v ↔ p = some (some v) := by
  rcases p with _ | _ | v' <;> simp [Maybe.value]

theorem sanitize_of_parts {raw : UnknownRecord} (hraw : m.raw = some (some raw))
    (h : (raw.lookup "e2ee_parts").any truthy = true) : sanitizeMessageForStorage m =
      { m with raw := some (some (raw.filter fun p => p.1 ≠ "e2ee_parts")) } := by
  unfold sanitizeMessageForStorage
  rw [value_eq_some.2 hraw]
  exact if_pos h

theorem sanitize_of_not (h : ¬hasParts m) : sanitizeMessageForStorage m = m := by
  unfold sanitizeMessageForStorage
  split
  · rfl
  · rename_i raw hraw
    exact if_neg fun htrue => h ⟨raw, value_eq_some.1 hraw, htrue⟩

theorem hide_of_not (h : ¬hasParts m) : m.hide J = m := by
  have hraw : m.raw.map (Option.map (hideRaw J)) = m.raw := by
    rcases hm : m.raw with _ | _ | raw
    · rfl
    · rfl
    · exact congrArg (fun r => some (some r)) (if_neg fun htrue => h ⟨raw, hm, htrue⟩)
  show { m with raw := m.raw.map (Option.map (hideRaw J)) } = m
  rw [hraw]

theorem not_hasParts_sanitize : ¬hasParts (sanitizeMessageForStorage m) := by
  by_cases h : hasParts m
  · obtain ⟨raw, hraw, htrue⟩ := h
    rw [sanitize_of_parts hraw htrue]
    rintro ⟨raw', hraw', htrue'⟩
    obtain rfl : raw.filter (fun p => p.1 ≠ "e2ee_parts") = raw' :=
      Option.some.inj (Option.some.inj hraw')
    have hnone : (raw.filter fun p => p.1 ≠ "e2ee_parts").lookup "e2ee_parts" = none := by
      rw [lookup_eq_none_iff]
      intro p hp
      exact bne_iff_ne.2 fun heq => of_decide_eq_true (mem_filter.1 hp).2 heq.symm
    rw [hnone] at htrue'
    cases htrue'
  · rw [sanitize_of_not h]
    exact h

/-- What is stored of a message has no keys, -/
theorem hide_sanitize : (sanitizeMessageForStorage m).hide J = sanitizeMessageForStorage m :=
  hide_of_not not_hasParts_sanitize

/-- and is the same without the keys. -/
theorem sanitize_of_hide : sanitizeMessageForStorage (m.hide J) = sanitizeMessageForStorage m := by
  by_cases h : hasParts m
  · obtain ⟨raw, hraw, htrue⟩ := h
    have hhidden : (m.hide J).raw = some (some (hideRaw J raw)) := by
      show m.raw.map (Option.map (hideRaw J)) = _
      rw [hraw]
      rfl
    have htrue' : ((hideRaw J raw).lookup "e2ee_parts").any truthy = true := by
      rw [lookup_hideRaw, if_pos rfl, Option.any_map]
      simpa [Function.comp_def] using htrue
    have hfilter : (hideRaw J raw).filter (fun p => p.1 ≠ "e2ee_parts") =
        raw.filter fun p => p.1 ≠ "e2ee_parts" := by
      unfold hideRaw
      rw [if_pos htrue, filter_map]
      have hp : (fun p : String × String => decide (p.1 ≠ "e2ee_parts")) ∘
          (fun p => if p.1 = "e2ee_parts" then (p.1, hideJson J p.2) else p) =
            fun p : String × String => decide (p.1 ≠ "e2ee_parts") := by
        funext p
        simp only [Function.comp_apply]
        split <;> rfl
      rw [hp]
      refine (map_congr_left fun p hp => ?_).trans (map_id _)
      exact if_neg (of_decide_eq_true (mem_filter.1 hp).2)
    rw [sanitize_of_parts hhidden htrue', sanitize_of_parts hraw htrue, hfilter]
    rfl
  · rw [hide_of_not h]

variable (db : MessageDb) (roomId : String)

theorem loadMessages_hide :
    (db.hide J).loadMessages roomId = (db.loadMessages roomId).map (hide J) := by
  unfold MessageDb.loadMessages
  split
  · rfl
  · have hrows : ((db.hide J).rows.filter fun row => row.roomId = roomId).map
        StoredMessage.payload = ((db.rows.filter fun row => row.roomId = roomId).map
          StoredMessage.payload).map (hide J) := by
      show ((db.rows.map (StoredMessage.hide J)).filter _).map _ = _
      rw [filter_map, map_map, map_map]
      rfl
    rw [hrows, sortBy_hide fun _ => rfl]
    exact filter_hide fun _ => rfl

theorem insertMessage_hide :
    MessageDb.insertMessage roomId (db.hide J) (m.hide J) =
      (MessageDb.insertMessage roomId db m).hide J := by
  unfold MessageDb.insertMessage
  rw [hide_id]
  split
  · rfl
  · have hrow : (⟨roomId, sanitizeMessageForStorage (m.hide J)⟩ : StoredMessage) =
        StoredMessage.hide J ⟨roomId, sanitizeMessageForStorage m⟩ := by
      rw [sanitize_of_hide]
      unfold StoredMessage.hide
      rw [hide_sanitize]
    rw [hrow]
    unfold MessageDb.replace
    have hdelete : (db.hide J).delete (StoredMessage.hide J
        ⟨roomId, sanitizeMessageForStorage m⟩).id =
          MessageDb.hide J (db.delete (sanitizeMessageForStorage m).id) := Table.delete_mapRows _ _
    rw [hdelete]
    exact Table.put_mapRows _ _

theorem saveMessages_hide :
    (db.hide J).saveMessages roomId (messages.map (hide J)) =
      (db.saveMessages roomId messages).hide J := by
  unfold MessageDb.saveMessages
  split
  · rfl
  · have hfold : ∀ (l : List ChatMessage) (db : MessageDb),
        (l.map (hide J)).foldl (MessageDb.insertMessage roomId) (db.hide J) =
          (l.foldl (MessageDb.insertMessage roomId) db).hide J := by
      intro l
      induction l with
      | nil => exact fun _ => rfl
      | cons m l ih =>
        intro db
        rw [map_cons, foldl_cons, foldl_cons, insertMessage_hide, ih]
    have htrimmed : MessageDb.trimmed (messages.map (hide J)) =
        (MessageDb.trimmed messages).map (hide J) := by
      unfold MessageDb.trimmed
      rw [sortBy_hide fun _ => rfl]
      dsimp only
      rw [length_map, map_drop]
    have hfilter : (db.hide J).filter (fun row => row.roomId ≠ roomId) =
        MessageDb.hide J (db.filter fun row => row.roomId ≠ roomId) := Table.filter_mapRows _ _
    rw [htrimmed, hfilter, hfold]

/-! ### Decryption -/

theorem withPayload_hide (accountId : String) (d : Decrypted) :
    withPayload J accountId (m.hide J) d.hide = (withPayload J accountId m d).hide J := by
  have hraw : (m.hide J).raw.value.getD [] = hideRaw J (m.raw.value.getD []) := by
    rw [value_raw_hide]
    cases m.raw.value <;> rfl
  have hepoch : "e2ee_epoch" ≠ "e2ee_parts" := by decide
  unfold withPayload
  rw [hraw]
  rcases d with ⟨epoch, text | parts⟩
  · show _ = hide J _
    unfold hide
    dsimp only [Decrypted.hide, DecryptedPayload.hide, Option.map_some]
    rw [hideRaw_set_ne _ _ hepoch]
  · unfold hide
    dsimp only [Decrypted.hide, DecryptedPayload.hide, Option.map_some]
    rw [hideRaw_set_parts _ (J.truthy_of_parse (J.parse_stringify parts)),
      hideRaw_set_ne _ _ hepoch, map_map]
    unfold hideJson
    rw [J.parse_stringify]
    rfl

theorem decryptMessage_hide (accountId : String) (outcome : Option Decrypted) :
    decryptMessage J accountId (m.hide J) (outcome.map Decrypted.hide) =
      (decryptMessage J accountId m outcome).hide J := by
  unfold decryptMessage
  rw [hide_canDecrypt]
  split
  · cases outcome with
    | none => rfl
    | some d => exact withPayload_hide accountId d
  · rfl

end

def Resolution.hide (J : PartsJson) : Resolution → Resolution
  | .ready message => .ready (message.hide J)
  | .promised n => .promised n

def MessageService.hide (J : PartsJson) (s : MessageService) : MessageService where
  processed := s.processed.map fun p => (p.1, p.2.hide J)
  active := s.active
  promises := s.promises.map fun p => (p.1.hide J, p.2.map (ChatMessage.hide J))

section

variable {s : MessageService} {m : ChatMessage}

theorem lookup_map {α β : Type} {g : α → β} (l : List (String × α)) (k : String) :
    (l.map fun p => (p.1, g p.2)).lookup k = (l.lookup k).map g := by
  rw [lookup_map_snd, find_of_lookup, Option.map_map]
  rfl

theorem resolve_hide : (s.hide J).resolveEncryptedMessage (m.hide J) =
    ((s.resolveEncryptedMessage m).1.hide J, (s.resolveEncryptedMessage m).2.hide J) := by
  unfold MessageService.resolveEncryptedMessage
  rw [hide_isEncrypted, hide_id]
  split
  · have hlookup : (s.hide J).processed.lookup m.id =
        (s.processed.lookup m.id).map (ChatMessage.hide J) := lookup_map _ _
    have hactive : (s.hide J).active = s.active := rfl
    rw [hlookup, hactive]
    cases s.processed.lookup m.id with
    | some processed => rfl
    | none =>
      cases s.active.lookup m.id with
      | some n => rfl
      | none =>
        unfold MessageService.hide
        simp only [length_map, map_append]
        rfl
  · rfl

theorem retry_hide : (s.hide J).retryEncryptedMessage (m.hide J) =
    ((s.retryEncryptedMessage m).1.hide J, (s.retryEncryptedMessage m).2.hide J) := by
  unfold MessageService.retryEncryptedMessage
  rw [hide_encryptedContent]
  split
  · rw [← resolve_hide]
    congr 1
    unfold MessageService.hide
    simp only [filter_map]
    rfl
  · rfl

variable (l : List (String × ChatMessage))

theorem evict_hide :
    evict (l.map fun p => (p.1, p.2.hide J)) = (evict l).map fun p => (p.1, p.2.hide J) := by
  induction l with
  | nil => rfl
  | cons p l ih =>
    rw [map_cons]
    unfold evict
    rw [length_map]
    by_cases h : maxProcessed < l.length + 1 ∧ p.1 ≠ ""
    · rw [if_pos h, if_pos h]
      exact ih
    · rw [if_neg h, if_neg h]
      rfl

theorem remember_hide :
    rememberProcessedMessage (l.map fun p => (p.1, p.2.hide J)) (m.hide J) =
      (rememberProcessedMessage l m).map fun p => (p.1, p.2.hide J) := by
  unfold rememberProcessedMessage
  rw [← evict_hide]
  congr 1
  rw [any_map]
  by_cases hany : (l.any fun p => p.1 = m.id) = true
  · refine (if_pos hany).trans ?_
    rw [if_pos hany, map_map, map_map]
    refine map_congr_left fun p _ => ?_
    by_cases hp : p.1 = m.id <;> simp [hp]
  · refine (if_neg hany).trans ?_
    rw [if_neg hany, map_append]
    rfl

theorem settle_hide (accountId : String) (n : ℕ) (outcome : Option Decrypted) :
    (s.hide J).settle J accountId n (outcome.map Decrypted.hide) =
      (s.settle J accountId n outcome).map (MessageService.hide J) := by
  unfold MessageService.settle
  have hpromise : (s.hide J).promises[n]? = (s.promises[n]?).map fun p =>
      (p.1.hide J, p.2.map (ChatMessage.hide J)) := getElem?_map
  rw [hpromise]
  rcases s.promises[n]? with _ | ⟨message, _ | resolved⟩
  · rfl
  · dsimp only [Option.map_some, Option.map_none]
    rw [decryptMessage_hide]
    unfold MessageService.hide
    simp only [hide_failed, hide_id, map_set]
    congr 2
    by_cases hfailed : (decryptMessage J accountId message outcome).e2eeDecryptionFailed.value =
      some true
    · rw [if_pos hfailed]
      exact if_pos hfailed
    · rw [if_neg hfailed, ← remember_hide]
      exact if_neg hfailed
  · rfl

theorem await_hide (r : Resolution) :
    (s.hide J).await (r.hide J) = (s.await r).map (hide J) := by
  cases r with
  | ready message => rfl
  | promised n =>
    show ((s.promises.map _)[n]?).bind Prod.snd = ((s.promises[n]?).bind Prod.snd).map _
    rw [getElem?_map]
    rcases s.promises[n]? with _ | ⟨message, resolved⟩ <;> rfl

end

/-- The same test on both sides, however it is decided. -/
theorem ite_hide {α β : Type} {f : α → β} {p : Prop} {i j : Decidable p} {a b : α} {c d : β}
    (hc : p → c = f a) (hd : ¬p → d = f b) : @ite β p i c d = f (@ite α p j a b) := by
  by_cases hp : p
  · rw [if_pos hp, if_pos hp]
    exact hc hp
  · rw [if_neg hp, if_neg hp]
    exact hd hp

/-! ## The list of chats -/

def ChatWorld.hide (J : PartsJson) (w : ChatWorld) : ChatWorld :=
  { w with messages := w.messages.hide J }

def ChatCall.hide (J : PartsJson) : ChatCall → ChatCall
  | .event message => .event (message.hide J)
  | .incoming message => .incoming (message.hide J)

def ChatStage.hide (J : PartsJson) : ChatStage → ChatStage
  | .received => .received
  | .dropPending message cached pending =>
    .dropPending (message.hide J) (cached.map (ChatMessage.hide J)) (pending.hide J)
  | .resolve message => .resolve (message.hide J)
  | .load message => .load (message.hide J)
  | .save message cached => .save (message.hide J) (cached.map (ChatMessage.hide J))
  | .update message alreadyCached => .update (message.hide J) alreadyCached
  | .store chats isOpen => .store chats isOpen

def ChatChance.hide (J : PartsJson) : ChatChance → ChatChance
  | .ok => .ok
  | .fails => .fails
  | .resolved message => .resolved (message.hide J)

section

variable {m : ChatMessage} {messages : List ChatMessage} {currentUser : Option String}

theorem loadCachedMessages_hide (db : MessageDb) (roomId : String) (x : ChatChance) :
    loadCachedMessages (db.hide J) roomId (x.hide J) =
      (loadCachedMessages db roomId x).map (hide J) := by
  cases x with
  | ok => exact loadMessages_hide db roomId
  | fails | resolved => rfl

theorem persistMessages_hide (db : MessageDb) (roomId : String) (x : ChatChance) :
    persistMessages (db.hide J) roomId (messages.map (hide J)) (x.hide J) =
      (persistMessages db roomId messages x).hide J := by
  cases x with
  | ok => exact saveMessages_hide db roomId
  | fails | resolved => rfl

theorem pendingOf_hide : pendingOf currentUser (m.hide J) (messages.map (hide J)) =
    (pendingOf currentUser m messages).map (hide J) := by
  unfold pendingOf
  rw [hide_senderId, hide_encryptedContent]
  split
  · exact find?_hide fun _ => hide_isE2eePending
  · rfl

@[simp] theorem hide_message (c : ChatCall) : (c.hide J).message = c.message.hide J := by
  cases c <;> rfl

@[simp] theorem hide_messages (w : ChatWorld) : (w.hide J).messages = w.messages.hide J := rfl

def hideChat (J : PartsJson) (out : ChatWorld × Next ChatStage ChatAnswer) :
    ChatWorld × Next ChatStage ChatAnswer :=
  (out.1.hide J, out.2.map (ChatStage.hide J))

/-- A handler of the list of chats does the same with a message whose keys are others. -/
theorem hide_chatStmt (w : ChatWorld) (c : ChatCall) (stage : ChatStage) (x : ChatChance) :
    chatStmt currentUser (w.hide J) (c.hide J) (stage.hide J) (x.hide J) =
      hideChat J (chatStmt currentUser w c stage x) := by
  cases stage with
  | received =>
    simp only [chatStmt, ChatStage.hide, hide_message, hide_messages, hide_roomId, hide_id,
      loadCachedMessages_hide, pendingOf_hide, any_map, Function.comp_def]
    refine ite_hide (fun _ => rfl) fun _ => ?_
    cases pendingOf currentUser c.message (loadCachedMessages w.messages c.message.roomId x) <;> rfl
  | dropPending message cached pending =>
    simp only [chatStmt, ChatStage.hide, hide_messages, hide_roomId, hide_id, filter_map,
      Function.comp_def, persistMessages_hide]
    rfl
  | resolve | store => cases x <;> rfl
  | load message =>
    simp only [chatStmt, ChatStage.hide, hide_messages, hide_roomId, hide_id,
      loadCachedMessages_hide]
    exact ite_hide (fun _ => rfl) fun _ => rfl
  | save message cached =>
    simp only [chatStmt, ChatStage.hide, hide_messages, hide_roomId, hide_id, mergeMessage_hide,
      persistMessages_hide, any_map, Function.comp_def]
    rfl
  | update message alreadyCached => rfl

end

/-! ## The open chat -/

def DetailWorld.hide (J : PartsJson) (w : DetailWorld) : DetailWorld where
  roomId := w.roomId
  messages := w.messages.map (ChatMessage.hide J)
  quotedMessage := w.quotedMessage.map (ChatMessage.hide J)
  saved := w.saved.hide J

def DetailCall.hide (J : PartsJson) : DetailCall → DetailCall
  | .message arrived => .message (arrived.hide J)
  | c => c

def AfterSave.hide (J : PartsJson) : AfterSave → AfterSave
  | .place messages after => .place (messages.map (ChatMessage.hide J)) after
  | .delete messageId previous => .delete messageId (previous.map (ChatMessage.hide J))
  | .pin messageId previous => .pin messageId (previous.map (ChatMessage.hide J))
  | next => next

def DetailStage.hide (J : PartsJson) : DetailStage → DetailStage
  | .saving roomId messages next => .saving roomId (messages.map (ChatMessage.hide J)) (next.hide J)
  | .resumed roomId next => .resumed roomId (next.hide J)
  | .requested roomId localId content pending =>
    .requested roomId localId content (pending.map (ChatMessage.hide J))
  | .deleting roomId previous => .deleting roomId (previous.map (ChatMessage.hide J))
  | .pinning roomId previous => .pinning roomId (previous.map (ChatMessage.hide J))
  | .resolving message => .resolving (message.hide J)
  | .retrying roomId failed => .retrying roomId (failed.hide J)
  | stage => stage

def DetailChance.hide (J : PartsJson) : DetailChance → DetailChance
  | .reply messages => .reply (messages.map (ChatMessage.hide J))
  | x => x

def hideDetail (J : PartsJson) (out : DetailWorld × Next DetailStage Unit) :
    DetailWorld × Next DetailStage Unit :=
  (out.1.hide J, out.2.map (DetailStage.hide J))

section

variable {m : ChatMessage} {messages : List ChatMessage} {currentUser : Option String}
  {w : DetailWorld} {c d : DetailCall} {roomId content : String}

@[simp] theorem detail_messages_hide :
    (w.hide J).messages = w.messages.map (ChatMessage.hide J) := rfl

variable (next : AfterSave)

theorem persist_hide :
    persist (w.hide J) (messages.map (ChatMessage.hide J)) (next.hide J) =
      (persist w messages next).hide J :=
  ite_hide (fun _ => rfl) fun _ => rfl

/-- The messages of the store change, and are stored. -/
theorem placed_hide : (({ w.hide J with messages := messages.map (hide J) },
      .goto (persist (w.hide J) (messages.map (hide J)) (next.hide J))) :
        DetailWorld × Next DetailStage Unit) =
      hideDetail J ({ w with messages }, .goto (persist w messages next)) := by
  rw [persist_hide]
  rfl

theorem upsertLocalMessage_hide (after : AfterPlace) :
    upsertLocalMessage (w.hide J) (m.hide J) after =
      hideDetail J (upsertLocalMessage w m after) := by
  unfold upsertLocalMessage
  have hmerge : mergeMessages (w.messages.map (hide J)) [m.hide J] =
      (mergeMessages w.messages [m]).map (hide J) := by
    show mergeMessages _ ([m].map (hide J)) = _
    exact mergeMessages_hide
  dsimp only [detail_messages_hide]
  rw [hmerge]
  exact congrArg (fun stage => (w.hide J, Next.goto stage))
    (persist_hide (.place (mergeMessages w.messages [m]) after))

variable {f : ChatMessage → ChatMessage} (messageId : String)

/-- A message is changed by what does not look at the keys. -/
theorem change_hide (hf : ∀ m : ChatMessage, f (m.hide J) = (f m).hide J) :
    change messageId f (messages.map (hide J)) =
      (change messageId f messages).map (hide J) := by
  unfold change
  rw [map_map, map_map]
  refine map_congr_left fun m _ => ?_
  exact ite_hide (fun _ => hf m) fun _ => rfl

/-- A message is changed, and the messages are stored. -/
theorem changed_hide (next : AfterSave) (hf : ∀ m : ChatMessage, f (m.hide J) = (f m).hide J) :
    (({ w.hide J with messages := change messageId f (w.messages.map (hide J)) },
      .goto (persist (w.hide J) (change messageId f (w.messages.map (hide J)))
        (next.hide J))) : DetailWorld × Next DetailStage Unit) =
      hideDetail J ({ w with messages := change messageId f w.messages },
        .goto (persist w (change messageId f w.messages) next)) := by
  rw [change_hide messageId hf]
  exact placed_hide next

variable (localId : String)

theorem flushPendingMessage_hide (content : String) :
    flushPendingMessage (w.hide J) localId content =
      hideDetail J (flushPendingMessage w localId content) := by
  refine ite_hide (fun _ => rfl) fun _ => ?_
  exact changed_hide localId (.request localId content) fun _ => rfl

theorem markFailed_hide : markFailed (w.hide J) localId = hideDetail J (markFailed w localId) :=
  changed_hide localId .finish fun _ => rfl

theorem nextPage_hide (pagesLeft : ℕ) :
    nextPage (w.hide J) messageId pagesLeft = hideDetail J (nextPage w messageId pagesLeft) := by
  unfold nextPage
  rw [detail_messages_hide]
  rcases pagesLeft with _ | pagesLeft
  · rfl
  · cases w.messages with
    | nil => rfl
    | cons oldest rest =>
      refine ite_hide (fun _ => rfl) fun _ => ?_
      show (w.hide J, Next.goto (DetailStage.older w.roomId messageId pagesLeft
        (((oldest :: rest).map (ChatMessage.hide J)).map ChatMessage.id))) = _
      rw [map_map]
      rfl

theorem readUpTo_hide :
    readUpTo currentUser messageId (messages.map (hide J)) =
      (readUpTo currentUser messageId messages).map (hide J) := by
  unfold readUpTo
  refine ext_getElem? fun n => ?_
  simp only [getElem?_mapIdx, getElem?_map, findIdx_map, Option.map_map]
  congr 1
  funext m
  exact ite_hide (fun _ => rfl) fun _ => rfl

variable (pending : Option ChatMessage)

theorem visibleSent_hide :
    visibleSent (pending.map (hide J)) (m.hide J) = (visibleSent pending m).hide J := by
  cases pending with
  | none => rfl
  | some pending =>
    unfold visibleSent
    dsimp only [Option.map_some, hide_attachments]
    cases pending.attachments.value <;> rfl

theorem takenFor_hide : takenFor currentUser (w.hide J) (m.hide J) =
    (takenFor currentUser w m).map (hide J) := by
  unfold takenFor
  rw [detail_messages_hide, pendingOf_hide, any_hide fun _ => rfl]
  exact ite_hide (fun _ => rfl) fun _ => rfl

theorem beginDetail_hide (c : DetailCall) (now : ℤ) :
    beginDetail currentUser (w.hide J) (c.hide J) now =
      hideDetail J (beginDetail currentUser w c now) := by
  cases c with
  | enterRoom | sendAttachment => exact ite_hide (fun _ => rfl) fun _ => rfl
  | leaveRoom => rfl
  | sendText content =>
    refine ite_hide (fun _ => rfl) fun _ => ?_
    show (w.hide J, Next.goto (DetailStage.prepared _
      ((w.quotedMessage.map (ChatMessage.hide J)).map toMessageQuote))) = _
    rw [Option.map_map]
    rfl
  | quoteMessage messageId =>
    simp only [beginDetail, DetailCall.hide, detail_messages_hide]
    rw [find?_hide fun _ => rfl]
    cases w.messages.find? fun item =>
      item.id = messageId && item.isDeleted.value ≠ some true <;> rfl
  | clearQuote => rfl
  | resendMessage messageId =>
    simp only [beginDetail, DetailCall.hide, detail_messages_hide]
    rw [find?_hide fun _ => rfl]
    cases w.messages.find? fun message =>
        message.id = messageId && message.status.value = some .failed with
    | none => rfl
    | some failed => exact ite_hide (fun _ => rfl) fun _ => flushPendingMessage_hide _ _
  | deleteMessage messageId =>
    exact ite_hide (fun _ => rfl) fun _ =>
      changed_hide messageId (.delete messageId w.messages) fun _ => rfl
  | setMessagePinned messageId pinned =>
    exact ite_hide (fun _ => rfl) fun _ =>
      changed_hide messageId (.pin messageId w.messages) fun _ => rfl
  | loadUntilFound messageId maxPages =>
    refine ite_hide (fun _ => rfl) fun _ => ?_
    rw [detail_messages_hide, any_hide fun _ => rfl]
    exact ite_hide (fun _ => rfl) fun _ => nextPage_hide _ _
  | message arrived =>
    simp only [beginDetail, DetailCall.hide, detail_messages_hide, takenFor_hide]
    rw [any_hide fun _ => rfl]
    refine ite_hide (fun _ => rfl) fun _ => ?_
    cases takenFor currentUser w arrived with
    | none => rfl
    | some pending =>
      dsimp only [Option.map_some]
      rw [filter_hide fun _ => rfl]
      refine ite_hide (fun _ => rfl) fun _ => ?_
      exact upsertLocalMessage_hide (w := { w with
        messages := w.messages.filter fun item => item.id ≠ pending.id })
        (m := { arrived with content := pending.content, status := some (some .sent) }) .finish
  | messageUpdate _ messageId | pinUpdate _ messageId =>
    exact ite_hide (fun _ => rfl) fun _ => changed_hide messageId .finish fun _ => rfl
  | messageRead roomId messageId readerId =>
    refine ite_hide (fun _ => rfl) fun _ => ?_
    rw [detail_messages_hide, any_hide fun _ => rfl]
    refine ite_hide (fun _ => ?_) fun _ => rfl
    rw [readUpTo_hide]
    exact placed_hide .finish

theorem resumeDetail_hide (roomId : String) (next : AfterSave) :
    resumeDetail (w.hide J) roomId (next.hide J) = hideDetail J (resumeDetail w roomId next) := by
  cases next with
  | finish => rfl
  | place messages after =>
    cases after with
    | finish => rfl
    | flush localId content =>
      exact flushPendingMessage_hide (w := { w with messages }) localId content
  | request localId content =>
    simp only [resumeDetail, AfterSave.hide, detail_messages_hide]
    rw [find?_hide fun _ => rfl]
    have hfilter : ∀ o : Option ChatMessage, (o.map (ChatMessage.hide J)).filter isE2eePending =
        (o.filter isE2eePending).map (ChatMessage.hide J) := by
      intro o
      cases o with
      | none => rfl
      | some m =>
        show (if isE2eePending (m.hide J) = true then _ else _) =
          Option.map _ (if isE2eePending m = true then _ else _)
        rw [hide_isE2eePending]
        split <;> rfl
    rw [hfilter]
    rfl
  | page messageId pagesLeft nothingNew =>
    show (if ((w.hide J).messages.any fun message => message.id = messageId) = true then _
      else _) = _
    rw [detail_messages_hide, any_hide fun _ => rfl]
    exact ite_hide (fun _ => rfl) fun _ => ite_hide (fun _ => rfl) fun _ => nextPage_hide _ _
  | _ => exact ite_hide (fun _ => rfl) fun _ => rfl

/-- Messages are merged into the store, and stored. -/
theorem merged_hide :
    (({ w.hide J with
        messages := mergeMessages (w.messages.map (hide J))
          (messages.map (hide J)) },
      .goto (persist (w.hide J) (mergeMessages (w.messages.map (hide J))
        (messages.map (hide J))) (next.hide J))) :
          DetailWorld × Next DetailStage Unit) =
      hideDetail J ({ w with messages := mergeMessages w.messages messages },
        .goto (persist w (mergeMessages w.messages messages) next)) := by
  rw [mergeMessages_hide]
  exact placed_hide next

/-- A message that is about to be sent has no parts. -/
theorem pending_hide (roomId content currentUserId : String) (quote : Option ChatMessageQuote)
    (e2eePending : Bool) (attachments : Option (List MessageAttachment)) (type : MessageType)
    (stamp : String) (now : ℤ) :
    (createPendingMessage roomId content currentUserId quote e2eePending attachments type stamp
      now).hide J = createPendingMessage roomId content currentUserId quote e2eePending attachments
        type stamp now := by
  refine hide_of_not ?_
  rintro ⟨raw, hraw, hparts⟩
  cases e2eePending with
  | false => cases hraw
  | true =>
    cases hraw
    cases hparts

/-- A message that is about to be sent is put with the others. -/
theorem upsertPending_hide {pending : ChatMessage} (h : pending.hide J = pending)
    (after : AfterPlace) :
    upsertLocalMessage { w.hide J with quotedMessage := none } pending after =
      hideDetail J (upsertLocalMessage { w with quotedMessage := none } pending after) := by
  have hupsert := upsertLocalMessage_hide (J := J) (w := { w with quotedMessage := none })
    (m := pending) after
  rw [h] at hupsert
  exact hupsert

/-- The server has answered with the message that was sent. -/
theorem requested_hide :
    detailStmt currentUser (w.hide J) c
        (.requested roomId localId content (pending.map (hide J)))
        (.reply [m.hide J]) =
      hideDetail J (detailStmt currentUser w d (.requested roomId localId content pending)
        (.reply [m])) := by
  have hmerged : mergeMessages ((w.messages.map (hide J)).filter fun message =>
        message.id ≠ localId)
      [withStatus .sent (visibleSent (pending.map (hide J)) (m.hide J))] =
        (mergeMessages (w.messages.filter fun message => message.id ≠ localId)
          [withStatus .sent (visibleSent pending m)]).map (hide J) := by
    rw [filter_hide fun _ => rfl, visibleSent_hide]
    show mergeMessages _ ([withStatus .sent (visibleSent pending m)].map (hide J)) = _
    exact mergeMessages_hide
  simp only [detailStmt, detail_messages_hide]
  rw [hmerged]
  exact placed_hide .finish

/-- An action goes on in the same way with messages whose keys are others. -/
theorem hide_detailStmt (c : DetailCall) (stage : DetailStage) (x : DetailChance) :
    detailStmt currentUser (w.hide J) (c.hide J) (stage.hide J) (x.hide J) =
      hideDetail J (detailStmt currentUser w c stage x) := by
  cases stage with
  | begin =>
    cases x with
    | ready e2ee stamp now => exact beginDetail_hide c now
    | _ => rfl
  | cached roomId =>
    have hcached : (if x.hide J = .ok then (w.hide J).saved.loadMessages roomId else []) =
        (if x = .ok then w.saved.loadMessages roomId else []).map (ChatMessage.hide J) := by
      cases x with
      | ok => exact loadMessages_hide w.saved roomId
      | _ => rfl
    simp only [detailStmt, DetailStage.hide]
    rw [hcached]
    generalize (if x = .ok then w.saved.loadMessages roomId else []) = loaded
    cases loaded <;> rfl
  | remote roomId =>
    cases x with
    | reply remote => exact merged_hide .finish
    | _ => rfl
  | saving roomId messages next =>
    cases x with
    | ok =>
      exact congrArg (fun saved => (({ w.hide J with saved } : DetailWorld),
        (Next.goto (.resumed roomId (next.hide J)) : Next DetailStage Unit)))
        (saveMessages_hide w.saved roomId)
    | _ => rfl
  | resumed roomId next => exact resumeDetail_hide roomId next
  | prepared text quote =>
    cases x with
    | ready e2ee stamp now => exact upsertPending_hide (pending_hide ..) _
    | _ => rfl
  | requested roomId localId content pending =>
    cases x with
    | reply messages =>
      rcases messages with _ | ⟨sent, _ | ⟨other, rest⟩⟩
      · rfl
      · exact requested_hide localId pending
      · rfl
    | fails => exact markFailed_hide localId
    | _ => rfl
  | conflicted localId =>
    cases x with
    | ok => exact markFailed_hide localId
    | _ => rfl
  | resolving message =>
    cases x with
    | reply messages =>
      rcases messages with _ | ⟨resolved, _ | ⟨other, rest⟩⟩
      · rfl
      · exact ite_hide (fun _ => rfl) fun _ => upsertLocalMessage_hide .finish
      · rfl
    | _ => rfl
  | retrying roomId failed =>
    cases x with
    | reply messages =>
      rcases messages with _ | ⟨resolved, _ | ⟨other, rest⟩⟩
      · rfl
      · exact upsertLocalMessage_hide .finish
      · rfl
    | _ => rfl
  | uploading =>
    cases x with
    | attached e2ee attachment stamp now =>
      exact ite_hide (fun _ => upsertPending_hide (pending_hide ..) _) fun _ => rfl
    | _ => rfl
  | uploaded roomId =>
    cases x with
    | reply messages =>
      rcases messages with _ | ⟨sent, _ | ⟨other, rest⟩⟩
      · rfl
      · exact upsertLocalMessage_hide (w := { w with quotedMessage := none })
          (m := withStatus .sent sent) .finish
      · rfl
    | _ => rfl
  | older roomId messageId pagesLeft known =>
    cases x with
    | reply older =>
      simp only [detailStmt, DetailStage.hide, DetailChance.hide, detail_messages_hide,
        map_eq_nil_iff, all_map, Function.comp_def, hide_id]
      exact ite_hide (fun _ => rfl) fun _ => merged_hide (.page messageId pagesLeft _)
    | _ => rfl
  | _ =>
    cases x with
    | fails => exact placed_hide .finish
    | _ => rfl

end

end RedcodeIm.H5
