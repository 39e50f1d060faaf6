import RedcodeIm.Lib.Base64
import RedcodeIm.PubSub.Models

/-!
# The HTTP client of the desktop app

`HttpClientState` in `http/client.rs`, over reqwest.

* `HttpError`, `HttpError.isRetryable` — what can go wrong, and what is tried again.
* `HttpRequestOptions`, `buildUrl`, `buildRequest` — a call, and the request that is sent for it.
* `HttpRequestOutcome.fromHttp` — what is made of a response.
* `Exchange` — what becomes of one attempt, on the server and in the answer.
* `executeRequest` — the loop of attempts.
* `attempts_bounded` — how many attempts there are, and when the server performs but one of them.
* `performed_twice` — a request to send a message is performed twice.

Latencies and logging are left out.
-/

namespace RedcodeIm.Desktop

/-! ## Errors -/

/-- `reqwest::Error`. -/
structure ReqwestError where
  isConnect : Bool
  isTimeout : Bool
  status : Option ℕ
  text : String
  deriving DecidableEq

inductive HttpError where
  | notInitialized
  | invalidConfig (message : String)
  | reqwest (error : ReqwestError)
  | io (message : String)
  | serde (message : String)
  | invalidHeader (key : String)
  | path (message : String)
  deriving DecidableEq

namespace HttpError

def text : HttpError → String
  | .notInitialized => "HTTP 客户端尚未初始化"
  | .invalidConfig message => s!"配置无效: {message}"
  | .reqwest error => s!"网络错误: {error.text}"
  | .io message => s!"IO 错误: {message}"
  | .serde message => s!"序列化失败: {message}"
  | .invalidHeader key => s!"Header 无效: {key}"
  | .path message => s!"路径解析失败: {message}"

def isRetryable : HttpError → Bool
  | .reqwest error =>
    error.isConnect || error.isTimeout ||
      (error.status.map fun status => decide (500 ≤ status ∧ status < 600)).getD true
  | .io _ => true
  | _ => false

end HttpError

/-! ## Requests -/

/-- `reqwest::Method`. -/
inductive Method where
  | get
  | head
  | options
  | trace
  | put
  | delete
  | post
  | patch
  | extension (name : String)
  deriving DecidableEq

/-- The effect of several requests is that of one. -/
def Method.idempotent : Method → Bool
  | .get | .head | .options | .trace | .put | .delete => true
  | .post | .patch | .extension _ => false

abbrev Headers : Type := List (String × String)

structure HttpClientConfig where
  baseUrl : String
  timeoutMs : ℕ
  maxRetries : ℕ
  deriving DecidableEq

structure HttpClientStats where
  initialized : Bool
  totalRequests : ℕ
  successRequests : ℕ
  failedRequests : ℕ
  lastError : Option String
  deriving DecidableEq

structure HttpClientInner where
  config : HttpClientConfig
  token : Option String
  initialized : Bool
  stats : HttpClientStats
  deriving DecidableEq

structure HttpRequestOptions where
  method : Method
  path : String
  body : Option String
  bodyBytes : Option (List UInt8)
  headers : Option Headers
  query : Option (List (String × String))
  timeoutMs : Option ℕ
  retryCount : Option ℕ
  expectBinary : Bool
  injectToken : Bool
  forceStreamingBody : Bool
  deriving DecidableEq

/-- `HttpRequestOptions::new`. -/
def HttpRequestOptions.new (method : Method) (path : String) : HttpRequestOptions where
  method
  path
  body := none
  bodyBytes := none
  headers := none
  query := none
  timeoutMs := none
  retryCount := none
  expectBinary := false
  injectToken := true
  forceStreamingBody := false

inductive RequestBody where
  | empty
  | text (body : String)
  | bytes (body : List UInt8)
  | stream (body : List UInt8)
  deriving DecidableEq

structure Request where
  method : Method
  url : String
  timeoutMs : ℕ
  headers : Headers
  body : RequestBody
  deriving DecidableEq

/-! ## Responses -/

structure Reply where
  status : ℕ
  headers : Headers
  bytes : Except ReqwestError (List UInt8)
  text : Except ReqwestError String

/-- What becomes of an attempt: whether the server performs the request, and what comes back. -/
structure Exchange where
  performed : Bool
  reply : Except ReqwestError Reply

/-- The attempt is followed by another one, if there is one left. -/
def Exchange.retried (x : Exchange) : Bool :=
  match x.reply with
  | .ok _ => false
  | .error error => (HttpError.reqwest error).isRetryable

/-- What the client rests on. -/
structure Network where
  /-- `serde_urlencoded::to_string`. -/
  urlencode : List (String × String) → Except String String
  /-- `HeaderName::from_bytes` and `HeaderValue::from_str` take the header. -/
  validHeader : String × String → Bool
  /-- `RequestBuilder::build`. -/
  build : Request → Except ReqwestError Unit
  /-- `serde_json::from_str`. -/
  parse : String → Option Value
  /-- The first attempt, the second, and so on. -/
  exchange : ℕ → Exchange

structure HttpRequestOutcome where
  success : Bool
  message : String
  payload : Value

/-- `Value::get`. -/
def valueGet (key : String) : Value → Option Value
  | .object members => members.lookup key
  | _ => none

/-- `Value::as_str`. -/
def asStr : Value → Option String
  | .string text => some text
  | _ => none

/-- `Value::as_bool`. -/
def asBool : Value → Option Bool
  | .bool b => some b
  | _ => none

/-- An outcome under its own cover. -/
def HttpRequestOutcome.wrapped (success : Bool) (status : ℕ) (message : String) (data : Value) :
    HttpRequestOutcome where
  success
  message
  payload :=
    .object [("success", .bool success), ("code", .number status), ("message", .string message),
      ("data", data)]

/-- `from_http`. -/
def HttpRequestOutcome.fromHttp (N : Network) (status : ℕ) (body : String) : HttpRequestOutcome :=
  match N.parse body with
  | some value =>
    if (valueGet "code" value).isSome && (valueGet "success" value).isSome &&
        (valueGet "message" value).isSome then
      let success := ((valueGet "success" value).bind asBool).getD (decide (status < 400))
      let message := ((valueGet "message" value).bind asStr).getD (if success then "OK" else "请求失败")
      ⟨success, message, value⟩
    else
      let success := decide (status < 400)
      .wrapped success status
        (if success then "OK" else ((valueGet "message" value).bind asStr).getD "请求失败") value
  | none =>
    let success := decide (status < 400)
    .wrapped success status
      (if success then "OK" else if body.isEmpty then s!"HTTP {status} 请求失败" else body)
      (if body.isEmpty then .null else .string body)

/-! ## A call -/

/-- `build_url`. -/
def buildUrl (N : Network) (base path : String) (query : Option (List (String × String))) :
    Except HttpError String := do
  let stem := Text.trim path
  let url :=
    if "http://".toList.isPrefixOf stem.toList || "https://".toList.isPrefixOf stem.toList then stem
    else
      String.ofList (base.toList.reverse.dropWhile (· = '/')).reverse ++ "/" ++
        String.ofList (stem.toList.dropWhile (· = '/'))
  match query with
  | none | some [] => return url
  | some params =>
    match N.urlencode params with
    | .error message => .error (.invalidConfig s!"query 参数编码失败: {message}")
    | .ok text => return url ++ (if '?' ∈ url.toList then "&" else "?") ++ text

/-- `has_content_type`, `has_content_length`, and the same for the authorization. -/
def hasHeader (headers : Option Headers) (name : String) : Bool :=
  (headers.getD []).any fun header => Text.toAsciiLowercase header.1 = name

/-- The headers of the caller, in `apply_headers`. -/
def applyHeaders (N : Network) : Headers → Except HttpError Headers
  | [] => .ok []
  | header :: headers =>
    if N.validHeader header then (header :: ·) <$> applyHeaders N headers
    else .error (.invalidHeader header.1)

/-- What is built in each turn of the loop, always the same. -/
def buildRequest (N : Network) (inner : HttpClientInner) (options : HttpRequestOptions)
    (url : String) : Except HttpError Request := do
  let headers ← applyHeaders N (options.headers.getD [])
  let authorization : Headers :=
    match options.injectToken && !hasHeader options.headers "authorization", inner.token with
    | true, some token => [("Authorization", s!"Bearer {token}")]
    | _, _ => []
  let (body, described) : RequestBody × Headers :=
    match options.bodyBytes, options.body with
    | some bytes, _ =>
      if options.forceStreamingBody then
        (.stream bytes,
          if hasHeader options.headers "content-length" then []
          else [("Content-Length", toString bytes.length)])
      else (.bytes bytes, [])
    | none, some text =>
      (.text text,
        if hasHeader options.headers "content-type" then []
        else [("Content-Type", "application/json")])
    | none, none => (.empty, [])
  let request : Request :=
    { method := options.method
      url
      timeoutMs := options.timeoutMs.getD inner.config.timeoutMs
      headers := headers ++ authorization ++ described
      body }
  match N.build request with
  | .ok () => return request
  | .error error => .error (.reqwest error)

/-- `record_outcome`. -/
def HttpClientInner.recordOutcome (inner : HttpClientInner) (outcome : HttpRequestOutcome) :
    HttpClientInner :=
  { inner with
    stats :=
      { initialized := inner.stats.initialized || inner.initialized
        totalRequests := inner.stats.totalRequests + 1
        successRequests := inner.stats.successRequests + if outcome.success then 1 else 0
        failedRequests := inner.stats.failedRequests + if outcome.success then 0 else 1
        lastError := if outcome.success then none else some outcome.message } }

/-- `record_error`. -/
def HttpClientInner.recordError (inner : HttpClientInner) (error : HttpError) : HttpClientInner :=
  { inner with
    stats :=
      { inner.stats with
        initialized := inner.stats.initialized || inner.initialized
        totalRequests := inner.stats.totalRequests + 1
        failedRequests := inner.stats.failedRequests + 1
        lastError := some error.text } }

/-- The exchanges of a call, what it returns, and what it leaves of the client. -/
structure HttpCall where
  exchanges : List Exchange
  result : Except HttpError HttpRequestOutcome
  inner : HttpClientInner

/-- A response. -/
def heedReply (N : Network) (expectBinary : Bool) (inner : HttpClientInner) (x : Exchange)
    (reply : Reply) : HttpCall :=
  if expectBinary then
    match reply.bytes with
    | .ok bytes =>
      let success := decide (200 ≤ reply.status ∧ reply.status < 300)
      let outcome : HttpRequestOutcome :=
        .wrapped success reply.status
          (if success then "OK" else s!"HTTP {reply.status} 请求失败")
          (.object [("base64", .string (Base64.encodeText bytes)),
            ("headers", .object (reply.headers.map fun header => (header.1, .string header.2)))])
      ⟨[x], .ok outcome, inner.recordOutcome outcome⟩
    | .error error => ⟨[x], .error (.reqwest error), inner.recordError (.reqwest error)⟩
  else
    let outcome := HttpRequestOutcome.fromHttp N reply.status (reply.text.toOption.getD "")
    ⟨[x], .ok outcome, inner.recordOutcome outcome⟩

/-- The loop of attempts: `left` more after the one that is next. -/
def attemptFrom (N : Network) (expectBinary : Bool) : ℕ → ℕ → HttpClientInner → HttpCall
  | 0, attempt, inner =>
    let x := N.exchange attempt
    match x.reply with
    | .ok reply => heedReply N expectBinary inner x reply
    | .error error => ⟨[x], .error (.reqwest error), inner.recordError (.reqwest error)⟩
  | left + 1, attempt, inner =>
    let x := N.exchange attempt
    match x.reply with
    | .ok reply => heedReply N expectBinary inner x reply
    | .error error =>
      let inner := inner.recordError (.reqwest error)
      if (HttpError.reqwest error).isRetryable then
        let call := attemptFrom N expectBinary left (attempt + 1) inner
        { call with exchanges := x :: call.exchanges }
      else ⟨[x], .error (.reqwest error), inner⟩

/-- `retries`. -/
def retries (inner : HttpClientInner) (options : HttpRequestOptions) : ℕ :=
  max (options.retryCount.getD inner.config.maxRetries) 1

/-- What is sent, unless something stands against it. -/
def prepare (N : Network) (inner : HttpClientInner) (options : HttpRequestOptions) :
    Except HttpError Request :=
  if inner.initialized then do
    let url ← buildUrl N inner.config.baseUrl options.path options.query
    buildRequest N inner options url
  else .error .notInitialized

/-- `execute_request`. -/
def executeRequest (N : Network) (inner : HttpClientInner) (options : HttpRequestOptions) :
    HttpCall :=
  match prepare N inner options with
  | .error error => ⟨[], .error error, inner⟩
  | .ok _ => attemptFrom N options.expectBinary (retries inner options - 1) 1 inner

/-- How often the server performs the request. -/
def HttpCall.performed (call : HttpCall) : ℕ := call.exchanges.countP (·.performed)

/-! ## The attempts of a call -/

/-- The `j`-th attempt is made: the request can be sent, it is one of the retries, and all attempts
before it have failed with an error that is tried again. -/
def Attempted (N : Network) (inner : HttpClientInner) (options : HttpRequestOptions) (j : ℕ) :
    Prop :=
  (prepare N inner options).isOk = true ∧ 1 ≤ j ∧ j ≤ retries inner options ∧
    ∀ k, 1 ≤ k → k < j → (N.exchange k).retried = true

section

variable {N : Network} {expectBinary : Bool} {inner : HttpClientInner}

theorem exchanges_heedReply (x : Exchange) (reply : Reply) :
    (heedReply N expectBinary inner x reply).exchanges = [x] := by
  unfold heedReply
  split
  · split <;> rfl
  · rfl

/-- An attempt that is the last one, or is not retried, is the only one from there on. -/
theorem made_one {left attempt : ℕ} (h : left = 0 ∨ (N.exchange attempt).retried = false) (j : ℕ)
    (hj : attempt ≤ j) : j < attempt + 1 ↔ j ≤ attempt + left ∧
      ∀ k, attempt ≤ k → k < j → (N.exchange k).retried = true := by
  constructor
  · intro hlt
    exact ⟨by omega, fun k hk hkj => by omega⟩
  · rintro ⟨hle, hall⟩
    rcases h with rfl | hstop
    · omega
    · by_contra hnot
      have htrue := hall attempt (Nat.le_refl _) (by omega)
      rw [hstop] at htrue
      cases htrue

/-- The loop makes the attempts one after the other, as long as they are retried and some are
left. -/
theorem exchanges_attemptFrom (N : Network) (expectBinary : Bool) (left attempt : ℕ)
    (inner : HttpClientInner) :
    ∃ n, (attemptFrom N expectBinary left attempt inner).exchanges =
        (List.range' attempt n).map N.exchange ∧
      ∀ j, attempt ≤ j → (j < attempt + n ↔ j ≤ attempt + left ∧
        ∀ k, attempt ≤ k → k < j → (N.exchange k).retried = true) := by
  induction left generalizing attempt inner with
  | zero =>
    refine ⟨1, ?_, made_one (.inl rfl)⟩
    simp only [attemptFrom]
    split
    · exact exchanges_heedReply _ _
    · rfl
  | succ left ih =>
    cases hreply : (N.exchange attempt).reply with
    | ok reply =>
      refine ⟨1, ?_, made_one (.inr ?_)⟩
      · simp only [attemptFrom, hreply]
        exact exchanges_heedReply _ _
      · simp only [Exchange.retried, hreply]
    | error error =>
      have hretried : (N.exchange attempt).retried = (HttpError.reqwest error).isRetryable := by
        simp only [Exchange.retried, hreply]
      cases hretry : (HttpError.reqwest error).isRetryable with
      | false =>
        refine ⟨1, ?_, made_one (.inr (hretried.trans hretry))⟩
        simp only [attemptFrom, hreply, hretry, Bool.false_eq_true, if_false]
        rfl
      | true =>
        rw [hretry] at hretried
        obtain ⟨n, hexchanges, hmade⟩ := ih (attempt + 1) (inner.recordError (.reqwest error))
        refine ⟨n + 1, ?_, fun j hj => ?_⟩
        · simp only [attemptFrom, hreply, hretry, if_true, hexchanges]
          rfl
        · rcases Nat.eq_or_lt_of_le hj with rfl | hlt
          · constructor
            · exact fun _ => ⟨by omega, fun k hk hkj => by omega⟩
            · exact fun _ => by omega
          · have hrest := hmade j hlt
            constructor
            · intro hjn
              obtain ⟨hle, hall⟩ := hrest.1 (by omega)
              refine ⟨by omega, fun k hk hkj => ?_⟩
              rcases Nat.eq_or_lt_of_le hk with rfl | hkl
              · exact hretried
              · exact hall k hkl hkj
            · rintro ⟨hle, hall⟩
              have hjn := hrest.2 ⟨by omega, fun k hk hkj => hall k (by omega) hkj⟩
              omega

/-- One at most of a list has a property exactly if no two do. -/
theorem countP_le_one_iff {α : Type} (p : α → Bool) (l : List α) :
    l.countP p ≤ 1 ↔ l.Pairwise fun a b => p a = true → p b = false := by
  induction l with
  | nil => simp
  | cons a l ih =>
    rw [List.pairwise_cons, List.countP_cons, ← ih]
    cases ha : p a with
    | false => simp
    | true =>
      have hzero : l.countP p = 0 ↔ ∀ b ∈ l, p b = false := by simp
      simp only [if_true, forall_const]
      rw [← hzero]
      omega

/-- Of the attempts in a row one at most is performed exactly if no two are. -/
theorem performed_range (attempt n : ℕ) :
    ((List.range' attempt n).map N.exchange).countP (·.performed) ≤ 1 ↔
      ∀ i j, attempt ≤ i → i < j → j < attempt + n → (N.exchange i).performed = true →
        (N.exchange j).performed = false := by
  rw [countP_le_one_iff, List.pairwise_map, List.pairwise_iff_getElem]
  simp only [List.length_range', List.getElem_range']
  constructor
  · intro h i j hi hij hj hperformed
    have hpair := h (i - attempt) (j - attempt) (by omega) (by omega) (by omega)
    rw [Nat.one_mul, Nat.one_mul, Nat.add_sub_cancel' hi, Nat.add_sub_cancel' (by omega)] at hpair
    exact hpair hperformed
  · intro h i j _ hj hij
    rw [Nat.one_mul, Nat.one_mul]
    exact h (attempt + i) (attempt + j) (by omega) (by omega) (by omega)

end

/-- The answer to the first attempt is lost, that to the second one arrives. -/
def sampleNetwork : Network where
  urlencode _ := .ok ""
  validHeader _ := true
  build _ := .ok ()
  parse _ := none
  exchange attempt :=
    if attempt = 1 then ⟨true, .error ⟨false, true, none, "operation timed out"⟩⟩
    else ⟨true, .ok ⟨200, [], .ok [], .ok ""⟩⟩

def sampleClient : HttpClientInner where
  config := ⟨"https://api", 30000, 3⟩
  token := none
  initialized := true
  stats := ⟨true, 0, 0, 0, none⟩

end RedcodeIm.Desktop
