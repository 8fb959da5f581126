import QueryNotation.Proofs.Chain.Reading
import QueryNotation.Proofs.Request.Text

namespace QueryNotation.Chain

/-! # Requests to services as text

The paths of requests to the storage hold the names of buckets and objects as they are given.  The
request that is shown for a call is read back from its text just when none of these names ends the
request line or its path.
-/

open Text
open RawRequest (IsHeader IsPathText isPathText_append ofText_eq_raw_iff)

namespace ServiceCall

variable {arguments : Arguments} {call : ServiceCall} {segments : List Segment} {bucket : String}
  {names : List String} {request : Request}

/-- The names that a call on the objects of a bucket puts into the path. -/
def objectNames (bucket : String) (arguments : Arguments) : List String :=
  match arguments.method with
  | "move" | "copy" => []
  | "remove" | "list" => [bucket]
  | _ => bucket :: (arguments.string? 0).toList

/-- The names that a call of `storage` puts into the path, given the segments behind it. -/
def storageNames (arguments : Arguments) (behind : List Segment) : List String :=
  match arguments.method with
  | "from" =>
    match behind with
    | .call method values :: _ =>
      (arguments.string? 0).toList.flatMap fun bucket => objectNames bucket { method, values }
    | _ => []
  | "getBucket" | "emptyBucket" | "deleteBucket" => (arguments.string? 0).toList
  | _ => []

/-- The names that a call of a service puts into the path, given the segments behind it. -/
def namesOf : Service → List Segment → List String
  | .storage, .call method values :: behind => storageNames { method, values } behind
  | _, _ => []

/-- A request whose path goes on as long as some names let it. -/
structure Holds (names : List String) (request : Request) : Prop where
  slash : request.path.toList.head? = some '/'
  headers : ∀ header ∈ request.headers, IsHeader header
  path : IsPathText request.path ↔ ∀ name ∈ names, IsPathText name

theorem string?_of_string {index : Nat} {text : String} (found : arguments.string index = .ok text) :
    arguments.string? index = some text := by
  obtain ⟨value, given, found⟩ := ok_of_bind found
  cases read : Arguments.textOf? value with
  | none =>
      simp only [read] at found
      cases found
  | some known =>
      simp only [read] at found
      obtain rfl := Except.ok.inj found
      unfold Arguments.value at given
      split at given
      · next other listed =>
        obtain rfl := Except.ok.inj given
        have present : other ≠ .null := by
          rintro rfl
          cases read
        simp [Arguments.string?, Arguments.get?, listed, Option.filter_some, present, read]
      · cases given

theorem isHeader_json : IsHeader ("Content-Type", "application/json") where
  name := by decide
  plain c first := by
    obtain rfl : 'C' = c := Option.some.inj first
    decide
  full := by decide
  whole := by decide
  first c member := by
    obtain rfl : 'a' = c := Option.some.inj member
    decide
  last c member := by
    obtain rfl : 'n' = c := Option.some.inj member
    decide

theorem isHeader_token : IsHeader ("Authorization", "Bearer <access_token>") where
  name := by decide
  plain c first := by
    obtain rfl : 'A' = c := Option.some.inj first
    decide
  full := by decide
  whole := by decide
  first c member := by
    obtain rfl : 'B' = c := Option.some.inj member
    decide
  last c member := by
    obtain rfl : '>' = c := Option.some.inj member
    decide

/-- A slash ends no path, so those in front of the path of an object may be dropped. -/
theorem isPathText_dropped (path : String) :
    IsPathText (String.ofList (path.toList.dropWhile (· == '/'))) ↔ IsPathText path := by
  have slashes : ∀ c ∈ path.toList.takeWhile (· == '/'), RawRequest.endsPath c = false := by
    intro c member
    have slash := List.mem_takeWhile_imp member
    rw [eq_of_beq slash]
    decide
  have split := List.takeWhile_append_dropWhile (p := (· == '/')) (l := path.toList)
  unfold IsPathText
  rw [String.toList_ofList]
  conv_rhs => rw [← split, List.forall_mem_append]
  exact (and_iff_right slashes).symm

theorem isPathText_object {lead : String} (safe : IsPathText lead) (bucket path : String) :
    IsPathText (objectPath lead bucket path) ↔ ∀ name ∈ [bucket, path], IsPathText name := by
  have storage : IsPathText storagePath := by decide
  have object : IsPathText "/object/" := by decide
  have slash : IsPathText "/" := by decide
  simp [objectPath, isPathText_append, isPathText_dropped, storage, object, slash, safe]

theorem holds_plain {method : Method} {path : String} (slash : path.toList.head? = some '/')
    (safe : IsPathText path ↔ ∀ name ∈ names, IsPathText name) : Holds names (plain method path) where
  slash := slash
  headers := List.forall_mem_nil _
  path := safe

theorem Holds.withParam (held : Holds names request) (key value : String) :
    Holds names (request.withParam key value) :=
  ⟨held.slash, held.headers, held.path⟩

theorem holds_withJson {method : Method} {path : String} (body : Json) (held : Holds names (plain method path)) :
    Holds names ((plain method path).withJson body) where
  slash := held.slash
  headers := List.forall_mem_singleton.mpr isHeader_json
  path := held.path

theorem holds_withToken {method : Method} {path : String} (held : Holds names (plain method path)) :
    Holds names (withToken (plain method path)) where
  slash := held.slash
  headers := List.forall_mem_singleton.mpr isHeader_token
  path := held.path

theorem holds_fixed {method : Method} {path : String} (slash : path.toList.head? = some '/')
    (safe : IsPathText path) : Holds [] (plain method path) :=
  holds_plain slash (iff_of_true safe (List.forall_mem_nil _))

theorem holds_withCredentials {path description : String} (safe : IsPathText path)
    (made : withCredentials arguments path description = .ok call) : Holds [] call.request := by
  obtain ⟨body, _, made⟩ := ok_of_bind made
  obtain rfl := Except.ok.inj made
  refine holds_withJson body (holds_fixed (by simp [authPath]) ?_)
  rw [isPathText_append]
  exact ⟨by decide, safe⟩

theorem holds_authRequest (made : authRequest arguments = .ok call) : Holds [] call.request := by
  unfold authRequest at made
  split at made
  · exact holds_withCredentials (by decide) made
  · obtain ⟨signing, credentials, made⟩ := ok_of_bind made
    obtain rfl := Except.ok.inj made
    have held : Holds [] signing.request := holds_withCredentials (by decide) credentials
    exact held.withParam "grant_type" "password"
  · exact holds_withCredentials (by decide) made
  · exact holds_withCredentials (by decide) made
  · obtain ⟨given, _, made⟩ := ok_of_bind made
    obtain rfl := Except.ok.inj made
    exact (holds_fixed (by decide) (by decide)).withParam _ _
  · obtain rfl := Except.ok.inj made
    exact holds_withToken (holds_fixed (by decide) (by decide))
  · obtain rfl := Except.ok.inj made
    exact holds_withToken (holds_fixed (by decide) (by decide))
  · obtain ⟨given, _, made⟩ := ok_of_bind made
    obtain rfl := Except.ok.inj made
    have fixed : Holds [] (plain .put (authPath ++ "/user")) := holds_fixed (by decide) (by decide)
    have headers : (withToken (plain .put (authPath ++ "/user"))).headers.append "Content-Type" "application/json" =
        [("Authorization", "Bearer <access_token>"), ("Content-Type", "application/json")] := by
      decide +kernel
    refine ⟨fixed.slash, ?_, fixed.path⟩
    rw [show Request.headers _ = _ from headers, List.forall_mem_cons, List.forall_mem_singleton]
    exact ⟨isHeader_token, isHeader_json⟩
  · obtain ⟨email, _, made⟩ := ok_of_bind made
    obtain rfl := Except.ok.inj made
    exact holds_withJson _ (holds_fixed (by decide) (by decide))
  · obtain rfl := Except.ok.inj made
    exact (holds_withJson _ (holds_fixed (by decide) (by decide))).withParam _ _
  · cases made

theorem holds_object {method : Method} {lead path : String} (given : arguments.string 0 = .ok path)
    (safe : IsPathText lead) (bucket : String) :
    Holds (bucket :: (arguments.string? 0).toList) (plain method (objectPath lead bucket path)) := by
  rw [string?_of_string given]
  exact holds_plain (by simp [objectPath, storagePath]) (isPathText_object safe bucket path)

theorem holds_upload {method : Method} (made : upload method bucket arguments = .ok call) :
    Holds (bucket :: (arguments.string? 0).toList) call.request := by
  obtain ⟨path, given, made⟩ := ok_of_bind made
  obtain rfl := Except.ok.inj made
  exact holds_object given (by decide) bucket

theorem holds_transfer {verb : String} (safe : IsPathText arguments.method)
    (made : transfer verb bucket arguments = .ok call) : Holds [] call.request := by
  obtain ⟨source, _, made⟩ := ok_of_bind made
  obtain ⟨destination, _, made⟩ := ok_of_bind made
  obtain rfl := Except.ok.inj made
  refine holds_withJson _ (holds_fixed (by simp [storagePath]) ?_)
  rw [isPathText_append]
  exact ⟨by decide, safe⟩

/-- A path that ends with the name of a bucket, or has a fixed word behind it. -/
theorem holds_bucket {method : Method} {lead tail : String} (safe : IsPathText lead) (after : IsPathText tail)
    (name : String) : Holds [name] (plain method (storagePath ++ lead ++ name ++ tail)) := by
  have storage : IsPathText storagePath := by decide
  refine holds_plain (by simp [storagePath]) ?_
  simp [isPathText_append, storage, safe, after]

theorem holds_objectRequest (made : objectRequest bucket arguments = .ok call) :
    Holds (objectNames bucket arguments) call.request := by
  obtain ⟨method, values⟩ := arguments
  unfold objectRequest at made
  dsimp only at made
  split at made
  · exact holds_upload made
  · exact holds_upload made
  · obtain ⟨path, given, made⟩ := ok_of_bind made
    obtain rfl := Except.ok.inj made
    exact holds_object given (by decide) bucket
  · obtain ⟨path, given, made⟩ := ok_of_bind made
    obtain rfl := Except.ok.inj made
    exact holds_object given (by decide) bucket
  · obtain ⟨path, given, made⟩ := ok_of_bind made
    obtain ⟨seconds, _, made⟩ := ok_of_bind made
    obtain rfl := Except.ok.inj made
    exact holds_withJson _ (holds_object given (by decide) bucket)
  · obtain ⟨paths, _, made⟩ := ok_of_bind made
    obtain rfl := Except.ok.inj made
    have held := @holds_bucket .delete "/object/" "" (by decide) (by decide) bucket
    rw [String.append_empty] at held
    exact holds_withJson _ held
  · obtain rfl := Except.ok.inj made
    have held := @holds_bucket .post "/object/list/" "" (by decide) (by decide) bucket
    rw [String.append_empty] at held
    exact holds_withJson _ held
  · exact holds_transfer (show IsPathText "move" by decide) made
  · exact holds_transfer (show IsPathText "copy" by decide) made
  · cases made

theorem holds_bucketRequest {method : Method} {tail action : String} (safe : IsPathText tail)
    (made : bucketRequest method tail action arguments = .ok call) :
    Holds (arguments.string? 0).toList call.request := by
  obtain ⟨id, given, made⟩ := ok_of_bind made
  obtain rfl := Except.ok.inj made
  rw [string?_of_string given]
  exact holds_bucket (by decide) safe id

theorem firstCall_ok {service : String} {first : Arguments} (found : firstCall service segments = .ok first) :
    ∃ behind, segments = .call first.method first.values :: behind := by
  cases segments with
  | nil => cases found
  | cons segment behind =>
      cases segment with
      | property name => cases found
      | call method values =>
          obtain rfl := Except.ok.inj found
          exact ⟨behind, rfl⟩

theorem holds_storageRequest (made : storageRequest arguments segments = .ok call) :
    Holds (storageNames arguments segments) call.request := by
  obtain ⟨method, values⟩ := arguments
  unfold storageRequest at made
  dsimp only at made
  split at made
  · obtain ⟨bucket, given, made⟩ := ok_of_bind made
    obtain ⟨inner, first, made⟩ := ok_of_bind made
    obtain ⟨behind, rfl⟩ := firstCall_ok first
    have held := holds_objectRequest made
    simpa [storageNames, string?_of_string given] using held
  · obtain rfl := Except.ok.inj made
    exact holds_fixed (by decide) (by decide)
  · exact holds_bucketRequest (by decide) made
  · obtain ⟨id, _, made⟩ := ok_of_bind made
    obtain rfl := Except.ok.inj made
    exact holds_withJson _ (holds_fixed (by decide) (by decide))
  · exact holds_bucketRequest (by decide) made
  · exact holds_bucketRequest (by decide) made
  · cases made

end ServiceCall

open ServiceCall

/-- The names that the call of a service in a text puts into the path of its request. -/
def namesInPath (options : Options) (text : String) : List String :=
  match (segments options.maxDepth (normalize text.toList)).toOption.bind splitRoot with
  | some (_, .service service, behind) => namesOf service behind
  | _ => []

theorem holds_read {options : Options} {text : String} {call : ServiceCall}
    (read : Chain.read options text = .ok (.service call)) : Holds (namesInPath options text) call.request := by
  obtain ⟨found, before, service, behind, cut, root, made⟩ := service_of_read read
  unfold namesInPath
  rw [toOption_of_ok cut, Option.bind_some, root]
  cases service with
  | auth =>
      obtain ⟨arguments, _, made⟩ := ok_of_bind made
      obtain ⟨plain, sent, made⟩ := ok_of_bind made
      obtain rfl := Except.ok.inj made
      have held : Holds [] plain.request := holds_authRequest sent
      exact held
  | storage =>
      obtain ⟨arguments, first, made⟩ := ok_of_bind made
      obtain ⟨plain, sent, made⟩ := ok_of_bind made
      obtain rfl := Except.ok.inj made
      obtain ⟨more, rfl⟩ := firstCall_ok first
      have held : Holds (storageNames arguments more) plain.request := holds_storageRequest sent
      exact held

/-- The request shown for a call of a service has a text with a request line of its method.  The text is
read as the request just when no name of a bucket or an object in its path holds a blank or a question
mark. -/
theorem ofText_service (options : Options) (text : String) (call : ServiceCall)
    (read : Chain.read options text = .ok (.service call)) :
    ∃ raw, RawRequest.ofText call.request.text = .ok raw ∧ raw.method = call.request.method.word ∧
      (raw = call.request.raw ↔
        ∀ name ∈ namesInPath options text, ∀ c ∈ name.toList, isBlank c = false ∧ c ≠ '?') := by
  have held := holds_read read
  obtain ⟨raw, taken, method, same⟩ := ofText_eq_raw_iff held.slash held.headers
  refine ⟨raw, taken, method, same.trans (held.path.trans ?_)⟩
  simp [IsPathText, RawRequest.endsPath]

/-- The call of a service that a chain is, if it is one. -/
def Reading.service? : Reading → Option ServiceCall
  | .query _ => none
  | .service call => some call

/-- A name with a blank: another bucket is read from the text of the request. -/
theorem blankName_cut :
    (read {} "supabase.storage.getBucket('a b')").map (fun reading => reading.service?.map fun call =>
        (RawRequest.ofText call.request.text, call.request.raw)) =
      .ok (some (.ok { method := "GET", path := "/storage/v1/bucket/a" },
        { method := "GET", path := "/storage/v1/bucket/a b" })) := by
  decide +kernel

theorem ofText_service_bucket :
    ∃ call, read {} "supabase.storage.getBucket('a')" = .ok (.service call) ∧
      RawRequest.ofText call.request.text = .ok call.request.raw := by
  have run : (read {} "supabase.storage.getBucket('a')").map (fun reading => reading.service?.isSome) =
      .ok true := by
    decide +kernel
  obtain ⟨reading, found, known⟩ := ok_of_map run
  cases reading with
  | query parsed => cases known
  | service call =>
      obtain ⟨raw, taken, _, same⟩ := ofText_service {} _ call found
      have names : namesInPath {} "supabase.storage.getBucket('a')" = ["a"] := by decide +kernel
      rw [names] at same
      have whole : raw = call.request.raw := same.mpr (by decide)
      exact ⟨call, found, taken.trans (congrArg Except.ok whole)⟩

end QueryNotation.Chain
