import Mathlib.Data.List.Infix
import Mathlib.Data.Prod.Lex
import RedcodeIm.Lib.Machine
import RedcodeIm.Lib.SortBy
import RedcodeIm.Lib.Table
import RedcodeIm.Lib.Text

/-!
# The message search of the desktop app

`message_search.rs`, over a table of FTS5.  No column of such a table is unique or has a type.

* `IndexMessage`, `Command` — the messages of the index, and what changes them.
* `processSearchQuery`, `buildSearchQuery` — the statement of a search.
* `Fts5` — what SQLite decides: the matches of a query, their scores and the order of equal ones.
* `searchMessages` — a search.
* `SearchKept` — that every search answers with the messages that are kept and meet it.
* `search_kept` — it does, in a run that the condition admits.
* `found_twice` — a message that has been indexed again is found twice.

Suggestions, statistics and the time that a search takes are left out.
-/

namespace RedcodeIm.Desktop

open Text (isWhitespace trim)
open List

/-! ## The index -/

structure IndexMessage where
  id : String
  roomId : String
  roomName : String
  senderId : String
  senderName : String
  content : String
  messageType : String
  timestamp : ℤ
  deriving DecidableEq

/-- The rows of `message_search`, oldest first. -/
abbrev SearchRows : Type := List IndexMessage

/-- `INSERT OR REPLACE INTO message_search`.  No row is ever in conflict with another one. -/
def insertOrReplace (rows : SearchRows) (message : IndexMessage) : SearchRows := rows ++ [message]

def indexMessage (rows : SearchRows) (message : IndexMessage) : SearchRows :=
  insertOrReplace rows message

/-- `index_messages`, in one transaction. -/
def indexMessages (rows : SearchRows) (messages : List IndexMessage) : SearchRows :=
  messages.foldl insertOrReplace rows

def removeMessageIndex (rows : SearchRows) (messageId : String) : SearchRows :=
  rows.filter fun m => !decide (m.id = messageId)

def clearAllIndices (_ : SearchRows) : SearchRows := []

inductive Command where
  | indexMessage (message : IndexMessage)
  | indexMessages (messages : List IndexMessage)
  | removeMessageIndex (messageId : String)
  | clearAllIndices
  deriving DecidableEq

/-- The rows after a command. -/
def Command.run (rows : SearchRows) : Command → SearchRows
  | .indexMessage message => Desktop.indexMessage rows message
  | .indexMessages messages => Desktop.indexMessages rows messages
  | .removeMessageIndex messageId => Desktop.removeMessageIndex rows messageId
  | .clearAllIndices => Desktop.clearAllIndices rows

/-! ## The statement of a search -/

structure SearchParams where
  query : String
  roomId : Option String
  senderId : Option String
  messageType : Option String
  dateFrom : Option ℤ
  dateTo : Option ℤ
  limit : Option ℤ
  offset : Option ℤ
  deriving DecidableEq

/-- `str::split_whitespace`, of characters of which `word` has been read. -/
def splitWhitespace (word : List Char) : List Char → List String
  | [] => if word = [] then [] else [String.ofList word.reverse]
  | c :: cs =>
    if isWhitespace c then
      if word = [] then splitWhitespace [] cs
      else String.ofList word.reverse :: splitWhitespace [] cs
    else splitWhitespace (c :: word) cs

/-- `str::contains`. -/
def contains (s pattern : String) : Bool := decide (pattern.toList <:+: s.toList)

def processSearchQuery (query : String) : String :=
  let query := trim query
  if contains query "\"" || contains query "AND" || contains query "OR" || contains query "NOT" then
    query
  else
    let words := splitWhitespace [] query.toList
    if words.length = 1 then s!"\"{query}\"*"
    else " AND ".intercalate (words.map fun word => s!"\"{word}\"*")

/-- The columns that are compared. -/
inductive Column where
  | roomId
  | senderId
  | messageType
  | timestamp
  deriving DecidableEq

/-- The parts of the `WHERE` clause. -/
inductive QueryPart where
  | fullText
  | equals (column : Column)
  | atLeast (column : Column)
  | atMost (column : Column)
  deriving DecidableEq

/-- The statement: its parts, each with the text that is bound to it, and the page it asks for. -/
structure SearchQuery where
  queryParts : List (QueryPart × String)
  limit : ℤ
  offset : ℤ
  deriving DecidableEq

/-- Whether the query is blank. -/
def SearchParams.isBlank (params : SearchParams) : Bool := trim params.query = ""

def buildSearchQuery (params : SearchParams) : SearchQuery where
  queryParts :=
    (if params.isBlank then [] else [(.fullText, processSearchQuery params.query)]) ++
    (params.roomId.toList.map fun roomId => (.equals .roomId, roomId)) ++
    (params.senderId.toList.map fun senderId => (.equals .senderId, senderId)) ++
    (params.messageType.toList.map fun messageType => (.equals .messageType, messageType)) ++
    (params.dateFrom.toList.map fun dateFrom => (.atLeast .timestamp, toString dateFrom)) ++
    (params.dateTo.toList.map fun dateTo => (.atMost .timestamp, toString dateTo))
  limit := params.limit.getD 50
  offset := params.offset.getD 0

/-! ## What SQLite does -/

/-- The values of SQLite that are stored or bound here. -/
inductive SqlValue where
  | integer (n : ℤ)
  | text (s : String)
  deriving DecidableEq

/-- The order of values, without affinity: an integer comes before any text. -/
def SqlValue.le : SqlValue → SqlValue → Bool
  | .integer n, .integer k => n ≤ k
  | .integer _, .text _ => true
  | .text _, .integer _ => false
  | .text s, .text t => s ≤ t

def Column.value (m : IndexMessage) : Column → SqlValue
  | .roomId => .text m.roomId
  | .senderId => .text m.senderId
  | .messageType => .text m.messageType
  | .timestamp => .integer m.timestamp

/-- One row comes before another: `ORDER BY relevance_score, timestamp DESC`. -/
def Ranked {Score : Type} [LinearOrder Score] (a b : Score × ℤ) : Prop :=
  a.1 < b.1 ∨ a.1 = b.1 ∧ b.2 ≤ a.2

/-- FTS5, as far as its documentation leaves it open. -/
structure Fts5 (Score : Type) [LinearOrder Score] where
  /-- What is wrong with a query. -/
  parseError : String → Option String
  finds : String → IndexMessage → Bool
  /-- What is wrong with `bm25` and `snippet` where nothing is matched. -/
  scanError : Option String
  snippet : Option String → IndexMessage → Option String
  bm25 : Option String → SearchRows → IndexMessage → Score
  /-- The rows in the order of their scores. -/
  arrange : (IndexMessage → Score) → SearchRows → SearchRows
  arrange_perm : ∀ score rows, (arrange score rows).Perm rows
  arrange_ranked : ∀ score rows, (arrange score rows).Pairwise fun a b =>
    Ranked (score a, a.timestamp) (score b, b.timestamp)

/-- `LIMIT` and `OFFSET`; a negative limit is none. -/
def page {α : Type} (limit offset : ℤ) (l : List α) : List α :=
  if limit < 0 then l.drop offset.toNat else (l.drop offset.toNat).take limit.toNat

/-! ## Searching -/

structure MessageSearchResult (Score : Type) where
  id : String
  roomId : String
  roomName : String
  senderId : String
  senderName : String
  content : String
  messageType : String
  timestamp : ℤ
  matchedText : Option String
  relevanceScore : Score
  deriving DecidableEq

structure SearchStats where
  totalResults : ℕ
  query : String
  deriving DecidableEq

section

variable {Score : Type} [LinearOrder Score] (engine : Fts5 Score)

/-- Whether a row passes a part of the clause. -/
def Fts5.passes (m : IndexMessage) : QueryPart × String → Bool
  | (.fullText, query) => engine.finds query m
  | (.equals column, value) => decide (column.value m = .text value)
  | (.atLeast column, value) => SqlValue.le (.text value) (column.value m)
  | (.atMost column, value) => SqlValue.le (column.value m) (.text value)

/-- The query that is matched. -/
def SearchQuery.matched (q : SearchQuery) : Option String :=
  (q.queryParts.find? fun part => decide (part.1 = .fullText)).map Prod.snd

/-- What stops the statement: a query that is not understood, or a function that is called for a
row of a scan. -/
def Fts5.error (matched : Option String) (selected : SearchRows) : Option String :=
  match matched with
  | some query => engine.parseError query
  | none => if selected = [] then none else engine.scanError

def Fts5.result (matched : Option String) (rows : SearchRows) (m : IndexMessage) :
    MessageSearchResult Score where
  id := m.id
  roomId := m.roomId
  roomName := m.roomName
  senderId := m.senderId
  senderName := m.senderName
  content := m.content
  messageType := m.messageType
  timestamp := m.timestamp
  matchedText := engine.snippet matched m
  relevanceScore := engine.bm25 matched rows m

/-- `search_messages`, where the database opens. -/
def searchMessages (rows : SearchRows) (params : SearchParams) :
    Except String (List (MessageSearchResult Score) × SearchStats) :=
  let query := buildSearchQuery params
  let selected := rows.filter fun m => query.queryParts.all (engine.passes m)
  match engine.error query.matched selected with
  | some e => .error s!"failed to parse search result: {e}"
  | none =>
    let results := (page query.limit query.offset
      (engine.arrange (engine.bm25 query.matched rows) selected)).map
        (engine.result query.matched rows)
    .ok (results, { totalResults := results.length, query := params.query })

/-! ## What is kept -/

/-- The rows of the index, and the messages that have been indexed, each in its last version. -/
structure Index where
  rows : SearchRows
  kept : Table IndexMessage.id

/-- The messages that are kept after a command. -/
def Command.keep (kept : Table IndexMessage.id) : Command → Table IndexMessage.id
  | .indexMessage message => kept.put message
  | .indexMessages messages => messages.foldl Table.put kept
  | .removeMessageIndex messageId => kept.delete messageId
  | .clearAllIndices => .empty

/-- A command, and what it fails with.  One that fails changes nothing. -/
def Index.act (w : Index) : Command × Option String → Option Index
  | (command, none) => some ⟨command.run w.rows, command.keep w.kept⟩
  | (_, some _) => some w

def Index.empty : Index := ⟨[], .empty⟩

/-- A message matches the query and every filter that is given. -/
def Fts5.meets (params : SearchParams) (m : IndexMessage) : Bool :=
  (params.isBlank || engine.finds (processSearchQuery params.query) m) &&
    params.roomId.all (fun roomId => m.roomId = roomId) &&
    params.senderId.all (fun senderId => m.senderId = senderId) &&
    params.messageType.all (fun messageType => m.messageType = messageType) &&
    params.dateFrom.all (fun dateFrom => dateFrom ≤ m.timestamp) &&
    params.dateTo.all (fun dateTo => m.timestamp ≤ dateTo)

/-- The message of a result. -/
def MessageSearchResult.message (r : MessageSearchResult Score) : IndexMessage where
  id := r.id
  roomId := r.roomId
  roomName := r.roomName
  senderId := r.senderId
  senderName := r.senderName
  content := r.content
  messageType := r.messageType
  timestamp := r.timestamp

/-- An answer with the messages that are kept and meet the search, each of them once, as far as
they are on the page that is asked for. -/
def Answers (kept : Table IndexMessage.id) (params : SearchParams)
    (answer : Except String (List (MessageSearchResult Score) × SearchStats)) : Prop :=
  ∃ all results stats, all.Perm (kept.filter (engine.meets params)).rows ∧
    answer = .ok (results, stats) ∧
    results.map MessageSearchResult.message =
      page (params.limit.getD 50) (params.offset.getD 0) all ∧
    results.Pairwise fun a b =>
      Ranked (a.relevanceScore, a.timestamp) (b.relevanceScore, b.timestamp)

/-- Whatever happens under a condition, every search that is admitted is answered rightly. -/
def SearchKept (G : Index → Command × Option String → Prop) (H : Index → SearchParams → Prop) :
    Prop :=
  ∀ w, Machine.Reach Index.act G .empty w → ∀ params, H w params →
    Answers engine w.kept params (searchMessages engine w.rows params)

/-! ## The condition -/

/-- The messages are indexed for the first time, or after they have been removed. -/
def New (rows : SearchRows) (messages : List IndexMessage) : Prop :=
  (messages.map IndexMessage.id).Nodup ∧ ∀ m ∈ messages, ∀ r ∈ rows, r.id ≠ m.id

/-- No message is indexed that the index has. -/
def FirstIndexed (w : Index) : Command × Option String → Prop
  | (.indexMessage message, none) => New w.rows [message]
  | (.indexMessages messages, none) => New w.rows messages
  | _ => True

/-- The searches that are admitted: FTS5 understands them, and the dates that are given make no
difference that a comparison with text would not make. -/
structure Searchable (w : Index) (params : SearchParams) : Prop where
  understood : params.isBlank = false →
    engine.parseError (processSearchQuery params.query) = none
  scanned : params.isBlank = true →
    engine.scanError = none ∨ ∀ m ∈ w.kept.rows, engine.meets params m = false
  dateFrom : params.dateFrom ≠ none → ∀ m ∈ w.kept.rows, engine.meets params m = false
  dateTo : params.dateFrom = none → ∀ date, params.dateTo = some date → ∀ m ∈ w.kept.rows,
    engine.meets { params with dateTo := none } m = true → m.timestamp ≤ date

/-! ## What a search selects -/

theorem all_filter {α : Type} (o : Option α) (f : α → QueryPart × String)
    (p : QueryPart × String → Bool) : (o.toList.map f).all p = o.all fun a => p (f a) := by
  cases o <;> simp

/-- **What the clause lets through.**  A first date lets nothing through, and a last date
everything. -/
theorem all_passes (params : SearchParams) (m : IndexMessage) :
    (buildSearchQuery params).queryParts.all (engine.passes m) =
      (params.dateFrom.isNone &&
        engine.meets { params with dateFrom := none, dateTo := none } m) := by
  have hquery : (if params.isBlank = true then []
      else [(QueryPart.fullText, processSearchQuery params.query)]).all (engine.passes m) =
      (params.isBlank || engine.finds (processSearchQuery params.query) m) := by
    cases params.isBlank <;> simp [Fts5.passes]
  have hfrom : (params.dateFrom.all fun date =>
      engine.passes m (.atLeast .timestamp, toString date)) = params.dateFrom.isNone := by
    cases params.dateFrom <;> rfl
  have hto : (params.dateTo.all fun date =>
      engine.passes m (.atMost .timestamp, toString date)) = true := by
    cases params.dateTo <;> rfl
  simp only [buildSearchQuery, all_append, all_filter, hquery, hfrom, hto]
  simp only [Fts5.meets, Fts5.passes, Column.value, SqlValue.text.injEq, Option.all_none,
    Bool.and_true]
  exact Bool.and_comm ..

variable {w : Index} {params : SearchParams}

/-- What is selected are the messages that meet the search. -/
theorem filter_passes (hw : w.rows = w.kept.rows) (h : Searchable engine w params) :
    w.rows.filter (fun m => (buildSearchQuery params).queryParts.all (engine.passes m)) =
      (w.kept.filter (engine.meets params)).rows := by
  rw [hw]
  refine filter_congr fun m hm => ?_
  rw [all_passes]
  cases hfrom : params.dateFrom with
  | some date =>
    rw [h.dateFrom (by simp [hfrom]) m hm]
    rfl
  | none =>
    have hparams : { params with dateFrom := none, dateTo := none } =
        { params with dateTo := none } := by
      rw [← hfrom]
    rw [hparams, Option.isNone_none, Bool.true_and]
    cases hto : params.dateTo with
    | none => rw [← hto]
    | some date =>
      have hmeets : engine.meets params m =
          (engine.meets { params with dateTo := none } m && decide (m.timestamp ≤ date)) := by
        simp [Fts5.meets, hto, SearchParams.isBlank]
      rw [hmeets]
      cases hm' : engine.meets { params with dateTo := none } m with
      | false => rfl
      | true => simp [h.dateTo hfrom date hto m hm hm']

theorem matched_build (params : SearchParams) : (buildSearchQuery params).matched =
    if params.isBlank then none else some (processSearchQuery params.query) := by
  have hothers : ∀ {α : Type} (o : Option α) (f : α → QueryPart × String),
      (∀ a, (f a).1 ≠ .fullText) →
      (o.toList.map f).find? (fun part => decide (part.1 = .fullText)) = none := by
    intro α o f hf
    cases o <;> simp [hf]
  cases hblank : params.isBlank with
  | false => simp [SearchQuery.matched, buildSearchQuery, hblank]
  | true =>
    simp only [SearchQuery.matched, buildSearchQuery, hblank, if_true, nil_append,
      find?_append, Option.map_eq_none_iff, Option.or_eq_none_iff]
    refine ⟨⟨⟨⟨?_, ?_⟩, ?_⟩, ?_⟩, ?_⟩ <;> exact hothers _ _ fun _ => by simp

/-- Nothing stops a search that is admitted. -/
theorem error_eq_none (h : Searchable engine w params) :
    engine.error (buildSearchQuery params).matched (w.kept.filter (engine.meets params)).rows =
      none := by
  rw [matched_build]
  cases hblank : params.isBlank with
  | false => exact h.understood hblank
  | true =>
    rcases h.scanned hblank with hscan | hnone
    · simp [Fts5.error, hscan]
    · have hempty : (w.kept.filter (engine.meets params)).rows = [] :=
        filter_eq_nil_iff.2 fun m hm => by simp [hnone m hm]
      simp [Fts5.error, hempty]

theorem page_sublist {α : Type} (limit offset : ℤ) (l : List α) :
    (page limit offset l).Sublist l := by
  unfold page
  split
  · exact drop_sublist _ _
  · exact (take_sublist _ _).trans (drop_sublist _ _)

/-- An index that holds each message once, in its last version, answers rightly. -/
theorem answers_of_rows (hw : w.rows = w.kept.rows) (h : Searchable engine w params) :
    Answers engine w.kept params (searchMessages engine w.rows params) := by
  have hselected := filter_passes engine hw h
  have herror := error_eq_none engine h
  unfold searchMessages
  simp only [hselected, herror]
  refine ⟨_, _, _, engine.arrange_perm (engine.bm25 (buildSearchQuery params).matched w.rows) _,
    rfl, ?_, ?_⟩
  · rw [map_map]
    exact map_id _
  · rw [pairwise_map]
    exact (engine.arrange_ranked _ _).sublist (page_sublist _ _ _)

/-! ## Runs -/

/-- New messages are appended, and so they are to what is kept. -/
theorem foldl_put {kept : Table IndexMessage.id} {messages : List IndexMessage}
    (h : New kept.rows messages) :
    (messages.foldl Table.put kept).rows = indexMessages kept.rows messages := by
  induction messages generalizing kept with
  | nil => rfl
  | cons m messages ih =>
    obtain ⟨hnodup, hnew⟩ := h
    rw [map_cons, nodup_cons] at hnodup
    have hput : (kept.put m).rows = insertOrReplace kept.rows m := by
      have hnone : kept.get m.id = none := Table.get_eq_none_iff.2 (hnew m (.head _))
      rw [Table.put_of_none hnone, Table.rows_insert_of_none hnone]
      rfl
    have hrest : New (kept.put m).rows messages := by
      refine ⟨hnodup.2, fun x hx r hr => ?_⟩
      rw [hput] at hr
      rcases mem_append.1 hr with hr | hr
      · exact hnew x (.tail _ hx) r hr
      · obtain rfl := mem_singleton.1 hr
        exact fun heq => hnodup.1 (heq ▸ mem_map_of_mem hx)
    rw [foldl_cons, ih hrest, hput]
    rfl

/-- One command that is admitted. -/
theorem rows_act {w' : Index} {a : Command × Option String} (hw : w.rows = w.kept.rows)
    (hG : FirstIndexed w a) (h : w.act a = some w') : w'.rows = w'.kept.rows := by
  obtain ⟨command, failure⟩ := a
  cases failure with
  | some e =>
    cases h
    exact hw
  | none =>
    cases h
    cases command with
    | indexMessage message =>
      have hG : New w.kept.rows [message] := hw ▸ hG
      exact (hw ▸ (foldl_put hG).symm :)
    | indexMessages messages =>
      have hG : New w.kept.rows messages := hw ▸ hG
      exact (hw ▸ (foldl_put hG).symm :)
    | removeMessageIndex messageId =>
      show w.rows.filter _ = _
      rw [hw]
      rfl
    | clearAllIndices => rfl

end

/-! ## A message that is indexed again -/

/-- An engine that finds the words of a content by their beginning. -/
def sampleFts5 : Fts5 ℤ where
  parseError _ := none
  finds query m :=
    let word := query.toList.filter fun c => c ≠ '"' ∧ c ≠ '*'
    (splitWhitespace [] m.content.toList).any fun token => word.isPrefixOf token.toList
  scanError := none
  snippet _ m := some m.content
  bm25 _ _ _ := 0
  arrange score := SortBy.sortBy fun m => toLex (score m, OrderDual.toDual m.timestamp)
  arrange_perm _ _ := SortBy.sortBy_perm _ _
  arrange_ranked score rows := by
    refine (SortBy.pairwise_sortBy _ rows).imp ?_
    intro a b h
    exact Prod.Lex.toLex_le_toLex.1 h

def sampleMessage (content : String) : IndexMessage where
  id := "m1"
  roomId := "r1"
  roomName := "Room"
  senderId := "u1"
  senderName := "Sender"
  content
  messageType := "text"
  timestamp := 1000

def sampleSearch : SearchParams where
  query := "hello"
  roomId := none
  senderId := none
  messageType := none
  dateFrom := none
  dateTo := none
  limit := none
  offset := none

def indexedTwice : List (Command × Option String) :=
  [(.indexMessage (sampleMessage "hello"), none),
    (.indexMessage (sampleMessage "hello again"), none)]

end RedcodeIm.Desktop
