import RedcodeIm.Attachments.Isolation

/-!
# The keys that are given out for uploads

A key for an upload is made of the room, the type of the part, a date and random digits, and
ends in an extension that the file name or the type of the content names.  Every other request
checks the keys it is given.

* `UsableKey` — what the other requests want of a key.
* `WellNamed` — the names whose extension leaves the key usable.
* `issuesUsableKeys_iff` — nothing else does.
-/

namespace RedcodeIm

open Awaiting List
open Text (isWhitespace trim toAsciiLowercase)

/-- The text has none of the separators that are refused in a key. -/
def NoSeparator (cs : List Char) : Prop := '/' ∉ cs ∧ '\\' ∉ cs ∧ ¬['.', '.'] <:+: cs

/-- The last character is not white space. -/
def EndsTight (cs : List Char) : Prop := ∀ c ∈ cs.getLast?, isWhitespace c = false

/-- The key can be committed and sent, in the room and nowhere else. -/
structure UsableKey (roomId : Uuid) (stem extension key : String) : Prop where
  key_eq : key = attachmentSpace roomId ++ stem ++ extension
  separators : NoSeparator extension.toList
  trimmed : trim key = key
  accepted : RoomKey roomId key
  alone : ∀ roomId', RoomKey roomId' key → roomId' = roomId

/-- What follows the last dot of the file name, or else the last slash of the type, goes into the
key as it is. -/
def WellNamed (filename contentType : Option String) : Prop :=
  match (filename.bind (afterLast '.')).bind nonempty with
  | some ext => '/' ∉ ext.toList ∧ '\\' ∉ ext.toList ∧
      EndsTight ext.toList
  | none =>
    match (contentType.bind fun mime =>
      afterLast '/' (toAsciiLowercase (trim mime))).bind nonempty with
    | some ext => '\\' ∉ ext.toList ∧ ¬['.', '.'] <:+: '.' :: ext.toList
    | none => True

/-- The date and the random digits are letters and digits. -/
def stamps : Env AttachmentService Unit := fun _ e a _ =>
  match e, a with
  | .today, .ok date => ∀ c ∈ date.toList, c.isAlphanum = true
  | .randomDigits, .ok random => ∀ c ∈ random.toList, c.isAlphanum = true
  | _, _ => False

/-- Every key that is made for the names is usable. -/
def IssuesUsableKeys (roomId : Uuid) (partType : MessagePartType)
    (filename contentType : Option String) : Prop :=
  Action.Always stamps (fun _ _ => True)
    (fun o _ => ∀ key, o = .done key →
      ∃ stem, UsableKey roomId stem (inferAttachmentExtension filename contentType partType) key)
    (buildMessageAttachmentKey roomId partType filename contentType) ()

/-! ## Characters -/

section

variable {c : Char}

theorem isAlphanum_iff : c.isAlphanum = true ↔
    65 ≤ c.toNat ∧ c.toNat ≤ 90 ∨ 97 ≤ c.toNat ∧ c.toNat ≤ 122 ∨ 48 ≤ c.toNat ∧ c.toNat ≤ 57 := by
  delta Char.isAlphanum Char.isAlpha Char.isUpper Char.isLower Char.isDigit
  simp [UInt32.le_iff_toNat_le, or_assoc]

theorem isWhitespace_of_isAlphanum (h : c.isAlphanum = true) : isWhitespace c = false := by
  have := isAlphanum_iff.mp h
  simp only [isWhitespace, Bool.or_eq_false_iff, Bool.and_eq_false_iff, decide_eq_false_iff_not,
    beq_eq_false_iff_ne]
  omega

/-- What holds of no letter is not changed by the case. -/
theorem toLower_iff {P : Char → Prop} (hP : ∀ c : Char, c.isAlphanum = true → ¬P c) :
    P c.toLower ↔ P c := by
  by_cases hc : c.val ≥ 'A'.val ∧ c.val ≤ 'Z'.val
  · have hle : 65 ≤ c.toNat ∧ c.toNat ≤ 90 := by simpa [UInt32.le_iff_toNat_le] using hc
    have hlower : c.toLower.toNat = (c.toNat + 32) % 2 ^ 32 := by
      rw [show c.toLower = _ from dif_pos hc]
      exact UInt32.toNat_add _ _
    exact iff_of_false (hP _ (isAlphanum_iff.mpr (by omega))) (hP _ (isAlphanum_iff.mpr (by omega)))
  · rw [show c.toLower = c from dif_neg hc]

theorem isWhitespace_toLower : isWhitespace c.toLower = false ↔ isWhitespace c = false := by
  rw [← not_iff_not]
  exact toLower_iff (P := fun c => ¬isWhitespace c = false) fun c hc h =>
    h (isWhitespace_of_isAlphanum hc)

theorem mem_toAsciiLowercase (hc : c.isAlphanum = false) {s : String} :
    c ∈ (toAsciiLowercase s).toList ↔ c ∈ s.toList := by
  have hiff (d : Char) : d.toLower = c ↔ d = c :=
    toLower_iff (P := (· = c)) fun d hd h => by rw [← h, hd] at hc; cases hc
  simp [toAsciiLowercase, hiff]

end

/-! ## The end of a key -/

theorem trimChars_eq_self_iff {c : Char} {cs : List Char} (hc : isWhitespace c = false) :
    Text.trimChars (c :: cs) = c :: cs ↔ EndsTight (c :: cs) := by
  rw [Text.trimChars_eq, dropWhile_cons_of_neg (by simp [hc]), rdropWhile_eq_self_iff]
  simp [EndsTight, getLast?_eq_some_getLast]

theorem endsTight_append {xs ys : List Char} (hy : ys ≠ []) :
    EndsTight (xs ++ ys) ↔ EndsTight ys := by
  rw [EndsTight, EndsTight, getLast?_append_of_ne_nil _ hy]

theorem endsTight_cons {c : Char} {cs : List Char} (h : cs ≠ []) :
    EndsTight (c :: cs) ↔ EndsTight cs :=
  @endsTight_append [c] cs h

/-- Two of a character lie behind what has none. -/
theorem pair_infix_append {c : Char} {xs ys : List Char} (hx : c ∉ xs)
    (h : [c, c] <:+: xs ++ ys) : [c, c] <:+: ys := by
  induction xs with
  | nil => exact h
  | cons x xs ih =>
    rw [cons_append, infix_cons_iff] at h
    rcases h with h | h
    · exact absurd (cons_prefix_cons.mp h).1 (ne_of_not_mem_cons hx)
    · exact ih (not_mem_of_not_mem_cons hx) h

/-- The characters before the extension. -/
def IsStem (stem : String) : Prop :=
  ∀ c ∈ stem.toList, c.isAlphanum = true ∨ c = '_' ∨ c = '/'

theorem isStem_attachmentSpace (roomId : Uuid) : IsStem (attachmentSpace roomId) := by
  intro c hc
  rw [toList_attachmentSpace] at hc
  rcases mem_append.mp hc with hc | hc
  · have hletters : ("messages/".toList.all fun c => c.isAlphanum || c == '_' || c == '/') := by
      decide
    simpa [or_assoc] using all_eq_true.1 hletters c hc
  · rcases mem_append.mp hc with hc | hc
    · rw [Nat.toString_eq_ofList_toDigits, String.toList_ofList] at hc
      have hdigit := Nat.isDigit_of_mem_toDigits (b := 10) (by decide) (by decide) hc
      exact .inl (by simp [Char.isAlphanum, hdigit])
    · exact .inr (.inr (mem_singleton.mp hc))

theorem IsStem.notMem {stem : String} {c : Char} (h : IsStem stem)
    (hc : ¬(c.isAlphanum = true ∨ c = '_' ∨ c = '/')) : c ∉ stem.toList :=
  fun hmem => hc (h c hmem)

theorem trim_key_iff (roomId : Uuid) (stem : String) {extension : String}
    (hext : extension.toList ≠ []) :
    trim (attachmentSpace roomId ++ stem ++ extension) =
      attachmentSpace roomId ++ stem ++ extension ↔ EndsTight extension.toList := by
  have hkey : (attachmentSpace roomId ++ stem ++ extension).toList =
      'm' :: ("essages/".toList ++ ((toString roomId).toList ++ ['/']) ++ stem.toList ++
        extension.toList) := by
    rw [String.toList_append, String.toList_append, toList_attachmentSpace]
    rfl
  rw [← String.toList_inj, Text.toList_trim, hkey, trimChars_eq_self_iff (by decide),
    ← cons_append, endsTight_append hext]

/-- The extension decides. -/
theorem usableKey_of {roomId : Uuid} {stem extension : String} (hstem : IsStem stem)
    (hext : extension.toList ≠ []) (hsep : NoSeparator extension.toList)
    (htight : EndsTight extension.toList) :
    UsableKey roomId stem extension (attachmentSpace roomId ++ stem ++ extension) := by
  have htrim := (trim_key_iff roomId stem hext).mpr htight
  have hspace := isStem_attachmentSpace roomId
  have hroom : RoomKey roomId (attachmentSpace roomId ++ stem ++ extension) := by
    unfold RoomKey isMessageAttachmentObjectKeyForRoom isValidMessageAttachmentObjectKey
    rw [htrim, String.toList_append, String.toList_append]
    refine decide_eq_true ⟨decide_eq_true ⟨?_, fun h => ?_, fun h => ?_, ?_⟩, ?_⟩
    · exact append_ne_nil_of_right_ne_nil _ hext
    · rw [append_assoc] at h
      exact hsep.2.2 (pair_infix_append (hstem.notMem (by decide))
        (pair_infix_append (hspace.notMem (by decide)) h))
    · rcases mem_append.mp h with h | h
      · exact (mem_append.mp h).elim (hspace.notMem (by decide)) (hstem.notMem (by decide))
      · exact hsep.2.1 h
    · rw [toList_attachmentSpace, append_assoc, append_assoc]
      exact prefix_append _ _
    · exact (prefix_append _ _).trans (prefix_append _ _)
  exact ⟨rfl, hsep, htrim, hroom, fun roomId' h => roomKey_unique h hroom⟩

/-! ## The extension -/

variable {s ext : String}

theorem notMem_afterLast {sep : Char} (h : afterLast sep s = some ext) : sep ∉ ext.toList := by
  unfold afterLast at h
  split at h
  · cases h
    rw [String.toList_ofList, mem_reverse]
    exact fun hmem => absurd (mem_takeWhile_imp hmem) (by simp)
  · cases h

theorem toList_dot (ext : String) : ("." ++ ext).toList = '.' :: ext.toList := by
  rw [String.toList_append]
  rfl

theorem noSeparator_dot :
    NoSeparator ("." ++ ext).toList ↔
      '/' ∉ ext.toList ∧ '\\' ∉ ext.toList ∧ ¬['.', '.'] <:+: '.' :: ext.toList := by
  simp [NoSeparator]

theorem nonempty_eq_some {s : Option String} (h : s.bind nonempty = some ext) :
    s = some ext ∧ ext.toList ≠ [] := by
  obtain ⟨s', hs, hne⟩ := Option.bind_eq_some_iff.mp h
  by_cases hempty : s' = ""
  · cases (if_pos hempty).symm.trans hne
  · cases (if_neg hempty).symm.trans hne
    exact ⟨hs, fun h => hempty (String.toList_inj.mp h)⟩

theorem endsTight_toAsciiLowercase :
    EndsTight (toAsciiLowercase s).toList ↔ EndsTight s.toList := by
  simp [EndsTight, toAsciiLowercase, isWhitespace_toLower]

theorem endsTight_trim (s : String) : EndsTight (trim s).toList := by
  rw [Text.toList_trim, Text.trimChars_eq]
  intro c hc
  obtain ⟨hne, rfl⟩ := mem_getLast?_eq_getLast hc
  simpa using rdropWhile_last_not isWhitespace _ hne

/-- What follows a separator ends as the text does. -/
theorem endsTight_afterLast {sep : Char} (h : afterLast sep s = some ext) (hne : ext.toList ≠ [])
    (hs : EndsTight s.toList) : EndsTight ext.toList := by
  unfold afterLast at h
  split at h
  · cases h
    rw [String.toList_ofList] at hne ⊢
    have hsplit : s.toList = (s.toList.reverse.dropWhile (· ≠ sep)).reverse ++
        (s.toList.reverse.takeWhile (· ≠ sep)).reverse := by
      rw [← reverse_append, takeWhile_append_dropWhile, reverse_reverse]
    rw [hsplit] at hs
    exact (endsTight_append hne).mp hs
  · cases h

theorem defaultExtension_usable (partType : MessagePartType) :
    NoSeparator partType.defaultExtension.toList ∧ EndsTight partType.defaultExtension.toList := by
  have htight : (partType.defaultExtension.toList.getLast?.all fun c => !isWhitespace c) := by
    cases partType <;> decide +kernel
  refine ⟨by unfold NoSeparator; cases partType <;> decide +kernel, fun c hc => ?_⟩
  simpa [Option.mem_def.1 hc] using htight

/-- The extension that is taken from the names. -/
theorem wellNamed_iff {filename contentType : Option String} (partType : MessagePartType) :
    WellNamed filename contentType ↔
      NoSeparator (inferAttachmentExtension filename contentType partType).toList ∧
        EndsTight (inferAttachmentExtension filename contentType partType).toList := by
  unfold WellNamed inferAttachmentExtension
  cases hname : (filename.bind (afterLast '.')).bind nonempty with
  | some ext =>
    obtain ⟨hlast, hne⟩ := nonempty_eq_some hname
    obtain ⟨name, -, hlast⟩ := Option.bind_eq_some_iff.mp hlast
    have hdot : '.' ∉ (toAsciiLowercase ext).toList :=
      mt (mem_toAsciiLowercase rfl).mp (notMem_afterLast hlast)
    have hpair : ¬['.', '.'] <:+: '.' :: (toAsciiLowercase ext).toList := by
      intro h
      rcases infix_cons_iff.mp h with h | h
      · exact hdot ((cons_prefix_cons.mp h).2.subset (mem_singleton_self _))
      · exact hdot (h.subset mem_cons_self)
    have hne' : (toAsciiLowercase ext).toList ≠ [] := by simpa [toAsciiLowercase] using hne
    rw [noSeparator_dot, mem_toAsciiLowercase rfl, mem_toAsciiLowercase rfl, toList_dot,
      endsTight_cons hne', endsTight_toAsciiLowercase]
    tauto
  | none =>
    cases htype : (contentType.bind fun mime =>
      afterLast '/' (toAsciiLowercase (trim mime))).bind nonempty with
    | some ext =>
      obtain ⟨hlast, hne⟩ := nonempty_eq_some htype
      obtain ⟨mime, -, hlast⟩ := Option.bind_eq_some_iff.mp hlast
      have hslash := notMem_afterLast hlast
      have htight := endsTight_afterLast hlast hne
        (endsTight_toAsciiLowercase.mpr (endsTight_trim mime))
      simp only
      rw [noSeparator_dot, toList_dot, endsTight_cons hne]
      exact ⟨fun h => ⟨⟨hslash, h⟩, htight⟩, fun h => h.1.2⟩
    | none => exact iff_of_true trivial (defaultExtension_usable partType)

theorem inferAttachmentExtension_ne_nil (filename contentType : Option String)
    (partType : MessagePartType) :
    (inferAttachmentExtension filename contentType partType).toList ≠ [] := by
  unfold inferAttachmentExtension
  split
  · simp
  · split
    · simp
    · cases partType <;> decide

/-! ## Every name -/

theorem isStem_of_stamp {date random : String} (partType : MessagePartType)
    (hdate : ∀ c ∈ date.toList, c.isAlphanum = true)
    (hrandom : ∀ c ∈ random.toList, c.isAlphanum = true) :
    IsStem (partType.category ++ "_" ++ date ++ "/" ++ random) := by
  have hcategory : ∀ c ∈ partType.category.toList, c.isAlphanum = true := by
    cases partType <;> exact all_eq_true.1 (by decide)
  intro c hc
  simp only [String.toList_append, mem_append] at hc
  rcases hc with (((hc | hc) | hc) | hc) | hc
  · exact .inl (hcategory c hc)
  · exact .inr (.inl (mem_singleton.mp hc))
  · exact .inl (hdate c hc)
  · exact .inr (.inr (mem_singleton.mp hc))
  · exact .inl (hrandom c hc)

/-- Every run makes one key, of the date and the digits. -/
theorem issuesUsableKeys_iff_forall {roomId : Uuid} {partType : MessagePartType}
    {filename contentType : Option String} :
    IssuesUsableKeys roomId partType filename contentType ↔
      ∀ date random : String, (∀ c ∈ date.toList, c.isAlphanum = true) →
        (∀ c ∈ random.toList, c.isAlphanum = true) →
        ∃ stem, UsableKey roomId stem (inferAttachmentExtension filename contentType partType)
          (attachmentSpace roomId ++ (partType.category ++ "_" ++ date ++ "/" ++ random ++
            inferAttachmentExtension filename contentType partType)) := by
  constructor
  · intro h date random hdate hrandom
    have hlast := (Action.always_perform_bind.mp h).2 (.ok date) () hdate
    exact (Action.always_perform_bind.mp hlast).2 (.ok random) () hrandom _ rfl
  · intro h
    refine Action.always_perform_bind.mpr ⟨trivial, fun date _ hdate => ?_⟩
    cases date with
    | error err => exact hdate.elim
    | ok date =>
      refine Action.always_perform_bind.mpr ⟨trivial, fun random _ hrandom => ?_⟩
      cases random with
      | error err => exact hrandom.elim
      | ok random =>
        intro key hdone
        cases hdone
        exact h date random hdate hrandom

/-- **The keys for the names are usable if and only if the extension is one.** -/
theorem issuesUsableKeys_iff (roomId : Uuid) (partType : MessagePartType)
    (filename contentType : Option String) :
    IssuesUsableKeys roomId partType filename contentType ↔ WellNamed filename contentType := by
  have hkey (date random : String) :
      attachmentSpace roomId ++ (partType.category ++ "_" ++ date ++ "/" ++ random ++
        inferAttachmentExtension filename contentType partType) =
      attachmentSpace roomId ++ (partType.category ++ "_" ++ date ++ "/" ++ random) ++
        inferAttachmentExtension filename contentType partType := by
    simp only [String.append_assoc]
  have hne := inferAttachmentExtension_ne_nil filename contentType partType
  rw [wellNamed_iff partType, issuesUsableKeys_iff_forall]
  simp only [hkey]
  constructor
  · intro h
    obtain ⟨stem, husable⟩ := h "20260101" "00000000" (all_eq_true.1 (by decide))
      (all_eq_true.1 (by decide))
    exact ⟨husable.separators, (trim_key_iff _ _ hne).mp husable.trimmed⟩
  · exact fun h date random hdate hrandom =>
      ⟨_, usableKey_of (isStem_of_stamp partType hdate hrandom) hne h.1 h.2⟩

/-- A backslash in the name of a file is one in the key, and the upload is never committed. -/
theorem backslash_not_usable :
    ¬ ∀ roomId partType filename contentType,
      IssuesUsableKeys roomId partType filename contentType := by
  intro h
  have hnamed := (issuesUsableKeys_iff_forall.mp (h 1 .file (some "a.b\\c") none))
    "20260101" "00000000" (all_eq_true.1 (by decide)) (all_eq_true.1 (by decide))
  obtain ⟨stem, husable⟩ := hnamed
  exact absurd husable.separators.2.1 (by decide)

end RedcodeIm
