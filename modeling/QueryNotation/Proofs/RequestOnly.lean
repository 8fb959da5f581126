import QueryNotation.Proofs.Chain.Reading
import QueryNotation.Proofs.Chain.Run
import QueryNotation.Proofs.Sql.Joined
import QueryNotation.Proofs.Sql.Deletion

namespace QueryNotation

/-! # Results that are requests only

Function calls and calls of services are shown as the request that they send.  A service always sends a
request as its method allows, with a warning.  A function call that asks for the head of its answer alone
is not told of, and a chain sends its arguments with it all the same.
-/

/-- A request to fetch something, the answer or only its head, sends no body. -/
def IsBodiless (request : Request) : Prop :=
  request.method = .get ∨ request.method = .head → request.body = none

namespace Chain.ServiceCall

variable {arguments : Arguments} {call : ServiceCall} {segments : List Segment}

theorem isBodiless_post {request : Request} (posts : request.method = .post) : IsBodiless request := by
  intro fetches
  rw [posts] at fetches
  rcases fetches with get | head
  · cases get
  · cases head

theorem method_withCredentials {path description : String}
    (made : withCredentials arguments path description = .ok call) : call.request.method = .post := by
  obtain ⟨body, _, made⟩ := ok_of_bind made
  obtain rfl := Except.ok.inj made
  rfl

theorem isBodiless_upload {method : Method} {bucket : String}
    (made : upload method bucket arguments = .ok call) : IsBodiless call.request := by
  obtain ⟨path, _, made⟩ := ok_of_bind made
  obtain rfl := Except.ok.inj made
  exact fun _ => rfl

theorem method_transfer {verb bucket : String} (made : transfer verb bucket arguments = .ok call) :
    call.request.method = .post := by
  obtain ⟨source, _, made⟩ := ok_of_bind made
  obtain ⟨destination, _, made⟩ := ok_of_bind made
  obtain rfl := Except.ok.inj made
  rfl

theorem isBodiless_bucketRequest {method : Method} {tail action : String}
    (made : bucketRequest method tail action arguments = .ok call) : IsBodiless call.request := by
  obtain ⟨id, _, made⟩ := ok_of_bind made
  obtain rfl := Except.ok.inj made
  exact fun _ => rfl

theorem isBodiless_authRequest (made : authRequest arguments = .ok call) : IsBodiless call.request := by
  unfold authRequest at made
  split at made
  · exact isBodiless_post (method_withCredentials made)
  · obtain ⟨signing, credentials, made⟩ := ok_of_bind made
    obtain rfl := Except.ok.inj made
    have posts : signing.request.method = .post := method_withCredentials credentials
    exact isBodiless_post posts
  · exact isBodiless_post (method_withCredentials made)
  · exact isBodiless_post (method_withCredentials made)
  · obtain ⟨given, _, made⟩ := ok_of_bind made
    obtain rfl := Except.ok.inj made
    exact fun _ => rfl
  · obtain rfl := Except.ok.inj made
    exact isBodiless_post rfl
  · obtain rfl := Except.ok.inj made
    exact fun _ => rfl
  · obtain ⟨given, _, made⟩ := ok_of_bind made
    obtain rfl := Except.ok.inj made
    rintro (get | head)
    · cases get
    · cases head
  · obtain ⟨email, _, made⟩ := ok_of_bind made
    obtain rfl := Except.ok.inj made
    exact isBodiless_post rfl
  · obtain rfl := Except.ok.inj made
    exact isBodiless_post rfl
  · cases made

theorem isBodiless_objectRequest {bucket : String} (made : objectRequest bucket arguments = .ok call) :
    IsBodiless call.request := by
  unfold objectRequest at made
  split at made
  · exact isBodiless_upload made
  · exact isBodiless_upload made
  · obtain ⟨path, _, made⟩ := ok_of_bind made
    obtain rfl := Except.ok.inj made
    exact fun _ => rfl
  · obtain ⟨path, _, made⟩ := ok_of_bind made
    obtain rfl := Except.ok.inj made
    exact fun _ => rfl
  · obtain ⟨path, _, made⟩ := ok_of_bind made
    obtain ⟨seconds, _, made⟩ := ok_of_bind made
    obtain rfl := Except.ok.inj made
    exact isBodiless_post rfl
  · obtain ⟨paths, _, made⟩ := ok_of_bind made
    obtain rfl := Except.ok.inj made
    rintro (get | head)
    · cases get
    · cases head
  · obtain rfl := Except.ok.inj made
    exact isBodiless_post rfl
  · exact isBodiless_post (method_transfer made)
  · exact isBodiless_post (method_transfer made)
  · cases made

theorem isBodiless_storageRequest (made : storageRequest arguments segments = .ok call) :
    IsBodiless call.request := by
  unfold storageRequest at made
  split at made
  · obtain ⟨bucket, _, made⟩ := ok_of_bind made
    obtain ⟨inner, _, made⟩ := ok_of_bind made
    exact isBodiless_objectRequest made
  · obtain rfl := Except.ok.inj made
    exact fun _ => rfl
  · exact isBodiless_bucketRequest made
  · obtain ⟨id, _, made⟩ := ok_of_bind made
    obtain rfl := Except.ok.inj made
    exact isBodiless_post rfl
  · exact isBodiless_bucketRequest made
  · exact isBodiless_bucketRequest made
  · cases made

/-- What a call of a service makes known: a request as its method allows, and a warning. -/
structure IsTold (call : ServiceCall) : Prop where
  request : IsBodiless call.request
  warned : call.warnings ≠ []

theorem isTold_ofAuth (made : ofAuth segments = .ok call) : IsTold call := by
  obtain ⟨arguments, _, made⟩ := ok_of_bind made
  obtain ⟨plain, sent, made⟩ := ok_of_bind made
  obtain rfl := Except.ok.inj made
  have bodiless : IsBodiless plain.request := isBodiless_authRequest sent
  exact ⟨bodiless, List.append_ne_nil_of_right_ne_nil _ (List.cons_ne_nil _ _)⟩

theorem isTold_ofStorage (made : ofStorage segments = .ok call) : IsTold call := by
  obtain ⟨arguments, _, made⟩ := ok_of_bind made
  obtain ⟨plain, sent, made⟩ := ok_of_bind made
  obtain rfl := Except.ok.inj made
  have bodiless : IsBodiless plain.request := isBodiless_storageRequest sent
  exact ⟨bodiless, List.append_ne_nil_of_right_ne_nil _ (List.cons_ne_nil _ _)⟩

end Chain.ServiceCall

namespace Chain

variable {options : Options} {parsed next : Parsed} {text : String}

theorem isTold_read {call : ServiceCall} (read : Chain.read options text = .ok (.service call)) :
    call.IsTold := by
  obtain ⟨_, _, service, _, _, _, made⟩ := service_of_read read
  cases service with
  | auth => exact ServiceCall.isTold_ofAuth made
  | storage => exact ServiceCall.isTold_ofStorage made

/-- A function call has arguments, be they none. -/
def SendsArguments (query : Query) : Prop :=
  query.operation = .call → query.body.isSome

theorem sendsArguments_startQuery {root : QueryRoot} {query : Query} (started : startQuery root = .ok query) :
    SendsArguments query := by
  cases root with
  | table values =>
      obtain ⟨name, _, started⟩ := ok_of_bind started
      obtain rfl := Except.ok.inj started
      exact fun call => by cases call
  | function values =>
      obtain ⟨name, _, started⟩ := ok_of_bind started
      dsimp only at started
      split at started
      · obtain rfl := Except.ok.inj started
        exact fun _ => rfl
      · cases started
      · obtain rfl := Except.ok.inj started
        exact fun _ => rfl

theorem sendsArguments_onQuery {query : Query} (has : SendsArguments query) (call : Call) :
    SendsArguments (call.onQuery query) := by
  cases call with
  | order _ _ _ table | limit _ table | range _ _ table => cases table <;> exact has
  | insert | upsert | update | delete => exact fun other => by cases other
  | _ => exact has

theorem sendsArguments_applyCall {call : Call} (has : SendsArguments parsed.query)
    (applied : applyCall options parsed call = .ok next) : SendsArguments next.query := by
  rcases applyCall_cases applied with ⟨columns, count, head, rfl, applied⟩ | reached
  · obtain ⟨selection, _, applied⟩ := ok_of_bind applied
    obtain rfl := Except.ok.inj applied
    exact has
  · rw [reached]
    exact sendsArguments_onQuery has call

theorem sendsArguments_applySegment {segment : Segment} (has : SendsArguments parsed.query)
    (applied : applySegment options parsed segment = .ok next) : SendsArguments next.query := by
  cases segment with
  | property name =>
      obtain rfl := Except.ok.inj applied
      exact has
  | call method values =>
      obtain ⟨call, _, applied⟩ := ok_of_bind applied
      exact sendsArguments_applyCall has applied

theorem sendsArguments_finish (has : SendsArguments parsed.query) : SendsArguments (finish parsed).query := by
  unfold finish
  dsimp only
  split <;> exact has

theorem sendsArguments_readQuery (read : readQuery options text = .ok parsed) :
    SendsArguments parsed.query :=
  readQuery_invariant (fun parsed => SendsArguments parsed.query) sendsArguments_startQuery
    sendsArguments_applySegment sendsArguments_finish read

end Chain

namespace Rest

open Text

variable {options : Options} {request : RawRequest} {parsed next : Parsed}

/-- What is left of a call: no operation becomes a call, and its head and its body stay. -/
structure KeepsCall (before after : Query) : Prop where
  call : after.operation = .call → before.operation = .call
  head : after.head = before.head
  body : after.body = before.body

theorem KeepsCall.self (query : Query) : KeepsCall query query :=
  ⟨id, rfl, rfl⟩

theorem KeepsCall.trans {first second third : Query} (before : KeepsCall first second)
    (behind : KeepsCall second third) : KeepsCall first third :=
  ⟨before.call ∘ behind.call, behind.head.trans before.head, behind.body.trans before.body⟩

theorem keepsCall_apply (edit : Edit) (query : Query) : KeepsCall query (edit.apply query) := by
  cases edit <;> exact ⟨id, rfl, rfl⟩

theorem keepsCall_applyParam {bound : Nat} {pair : String × String}
    (applied : applyParam bound parsed pair = .ok next) : KeepsCall parsed.query next.query := by
  have edited := applyParam_edit bound parsed pair
  rw [applied] at edited
  obtain ⟨edit, _, same⟩ := ok_of_map edited.symm
  rw [← same]
  exact keepsCall_apply edit parsed.query

theorem keepsCall_foldlM {bound : Nat} {pairs : List (String × String)}
    (run : pairs.foldlM (applyParam bound) parsed = .ok next) : KeepsCall parsed.query next.query :=
  foldlM_invariant (fun between => KeepsCall parsed.query between.query)
    (fun kept applied => kept.trans (keepsCall_applyParam applied)) (.self _) run

theorem keepsCall_applyHeaders (applied : applyHeaders request parsed = .ok next) :
    KeepsCall parsed.query next.query := by
  have headed := headerFrame_applyHeaders applied
  refine ⟨fun call => ?_, by rw [headed.same], by rw [headed.same]⟩
  rcases headed.operation with same | ⟨_, upserts⟩
  · rw [← same, call]
  · rw [call] at upserts
    cases upserts

/-- A method that reads as `HEAD` is not `POST`. -/
theorem not_post_of_head {method : String}
    (head : (String.ofList (trim method.toList)).toUpper = "HEAD") : method.toUpper ≠ "POST" := by
  intro post
  have inside := (trim_sublist method.toList).map Char.toUpper
  have front : (trim method.toList).map Char.toUpper = "HEAD".toList := by
    rw [← head]
    simp [String.toUpper]
  have whole : method.toList.map Char.toUpper = "POST".toList := by
    rw [← post]
    simp [String.toUpper]
  rw [front, whole] at inside
  exact absurd inside (by decide)

theorem method_of_target {asked : Target} (found : target request = .ok asked)
    (call : asked.operation = .call) (head : asked.head = true) :
    (String.ofList (trim request.method.toList)).toUpper = "HEAD" := by
  obtain ⟨path, _, found⟩ := ok_of_bind found
  dsimp only at found
  have table {method name : String} (made : tableTarget method name request = .ok asked) :
      asked.operation ≠ .call := by
    unfold tableTarget at made
    split at made
    case h_6 | h_7 => cases made
    all_goals
      obtain rfl := Except.ok.inj made
      exact fun call => by cases call
  split at found
  · cases found
  · split at found
    · cases found
    · unfold functionTarget at found
      split at found
      · obtain rfl := Except.ok.inj found
        cases head
      · split at found
        · next word => exact word
        · cases found
  · exact absurd call (table found)
  · cases found

/-- A request for the head of what a function answers is read without arguments. -/
theorem body_read (read : Rest.read options request = .ok parsed) (call : parsed.query.operation = .call)
    (head : parsed.query.head = true) : parsed.query.body = none := by
  obtain ⟨asked, started, applied, headed, reads⟩ := ok_of_read read
  obtain ⟨columns, embeds, start⟩ := start_ok reads.begun
  obtain ⟨rest, given⟩ := applyBody_ok reads.body
  have kept := (keepsCall_foldlM reads.params).trans (keepsCall_applyHeaders reads.headers)
  have asksCall : headed.query.operation = .call := by rwa [rest] at call
  have asksHead : headed.query.head = true := by rwa [rest] at head
  rw [kept.head, start] at asksHead
  have started := kept.call asksCall
  rw [start] at started
  have unposted := not_post_of_head (method_of_target reads.line started asksHead)
  rcases given with same | accepts
  · rw [same, kept.body, start]
  · simp [acceptsBody, asksCall, unposted] at accepts

/-- A function call without a word is one for the head of the answer, and that one has its arguments as
body. -/
theorem write_call {query : Query} (call : query.operation = .call) :
    ((write query).warnings = [] ↔ query.head = true) ∧
      (IsBodiless (write query).request ↔ (query.head = true → query.body = none)) := by
  unfold IsBodiless write warnings bodyOf methodOf
  rw [call]
  cases query.head <;> cases query.body <;> simp

end Rest

open Sql (readText)

variable {options : Options} {source : Form} {text : String} {parsed : Parsed} {result : Conversion}

/-- A query that is a request only is a function call. -/
theorem ofParsed_requestOnly (converted : Conversion.ofParsed options .rest parsed = .ok result)
    (only : result.requestOnly = true) : parsed.query.operation = .call ∧
      result.request = some (Rest.write parsed.query).request ∧
      (result.warnings = [] ↔ parsed.query.head = true ∧ parsed.warnings = []) := by
  obtain ⟨_, _, converted⟩ := ok_of_bind converted
  obtain rfl := Except.ok.inj converted
  have call : parsed.query.operation = .call := of_decide_eq_true only
  refine ⟨call, rfl, ?_⟩
  rw [← (Rest.write_call call).1, and_comm]
  exact List.append_eq_nil_iff

/-- What is shown as a request only is a call of a service or of a function.  That of a service has a
warning, and a body only as its method allows.  That of a function is without a warning of its own just
when it asks for the head of the answer, and then it has a body if it was written as a chain. -/
theorem convert_requestOnly (options : Options) (source : Form) (text : String) (result : Conversion)
    (converted : convert options source .rest text = .ok result) (only : result.requestOnly = true) :
    ∃ request, result.request = some request ∧
      ((∃ call, source = .chain ∧ Chain.read options text = .ok (.service call) ∧
          result.warnings ≠ [] ∧ IsBodiless request) ∨
        ∃ parsed, source ≠ .sql ∧ readText options source text = .ok parsed ∧
          parsed.query.operation = .call ∧
          (result.warnings = [] ↔ parsed.query.head = true ∧ parsed.warnings = []) ∧
          (IsBodiless request ↔ ¬ (source = .chain ∧ parsed.query.head = true))) := by
  cases source with
  -- No statement is a function call.
  | sql =>
      obtain ⟨parsed, read, converted⟩ := ok_of_bind converted
      exact absurd (ofParsed_requestOnly converted only).1 (Sql.not_call_read read)
  | rest =>
      obtain ⟨request, taken, converted⟩ := ok_of_bind converted
      obtain ⟨parsed, read, converted⟩ := ok_of_bind converted
      obtain ⟨call, sent, silent⟩ := ofParsed_requestOnly converted only
      have found : readText options .rest text = .ok parsed := by
        unfold readText
        simp only [taken, ok_bind, read]
      refine ⟨_, sent, .inr ⟨parsed, by decide, found, call, silent, ?_⟩⟩
      rw [(Rest.write_call call).2]
      exact ⟨fun _ chain => (by cases chain.1), fun _ => Rest.body_read read call⟩
  | chain =>
      obtain ⟨reading, read, converted⟩ := ok_of_bind (show _ >>= _ = _ from converted)
      cases reading with
      | service call =>
          obtain rfl := Except.ok.inj converted
          have told := Chain.isTold_read read
          exact ⟨call.request, rfl, .inl ⟨call, rfl, read, told.warned, told.request⟩⟩
      | query parsed =>
          obtain ⟨call, sent, silent⟩ := ofParsed_requestOnly converted only
          have found : readText options .chain text = .ok parsed := by
            unfold readText Chain.readQuery
            simp only [ok_bind, read]
            rfl
          have has := Chain.sendsArguments_readQuery found call
          refine ⟨_, sent, .inr ⟨parsed, by decide, found, call, silent, ?_⟩⟩
          rw [(Rest.write_call call).2]
          cases parsed.query.head <;> simp [Option.isSome_iff_ne_none.mp has]

/-- A function called for the head of its answer: nothing is said, and a `HEAD` has a body. -/
theorem headCall_untold :
    (convert {} .chain .rest "supabase.rpc('add_one', { n: 1 }, { head: true })").map
        (fun result => (result.requestOnly, result.warnings, result.request)) =
      .ok (true, [], some {
        method := .head
        path := "/rpc/add_one"
        headers := [("Content-Type", "application/json")]
        body := some (.object [("n", .number (.integer 1))]) }) := by
  decide +kernel

theorem convert_requestOnly_user :
    ∃ result request, convert {} .chain .rest "supabase.auth.getUser()" = .ok result ∧
      result.request = some request ∧ result.warnings ≠ [] ∧ IsBodiless request := by
  have run : (convert {} .chain .rest "supabase.auth.getUser()").map Conversion.requestOnly = .ok true := by
    decide +kernel
  obtain ⟨result, converted, only⟩ := ok_of_map run
  obtain ⟨request, sent, service | query⟩ := convert_requestOnly {} .chain _ result converted only
  · obtain ⟨call, _, _, warned, bodiless⟩ := service
    exact ⟨result, request, converted, sent, warned, bodiless⟩
  · obtain ⟨parsed, _, read, _⟩ := query
    have refused : (readText {} .chain "supabase.auth.getUser()").toBool = false := by decide +kernel
    rw [read] at refused
    cases refused

end QueryNotation
