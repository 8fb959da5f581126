import QueryNotation.Request.Basic

namespace QueryNotation

/-! # Headers added one after the other

A value goes to the header that has its name already, in any ASCII case, behind a comma.  So no name
stands twice among headers that were added, each stands where it was used first and as it was spelled
there, and under it stand all its values in the order in which they were added.
-/

namespace Headers

variable {headers : Headers} {key name other value : String}

theorem sameName_self (name : String) : sameName name name = true := by
  simp [sameName]

theorem sameName_comm (name other : String) : sameName name other = sameName other name := by
  simp only [sameName, eq_comm]

theorem sameName_congr (same : sameName key name = true) (other : String) :
    sameName key other = sameName name other := by
  simp only [sameName, decide_eq_true_eq] at same ⊢
  rw [same]

def values (name : String) (headers : Headers) : List String :=
  (headers.filter fun (key, _) => sameName key name).map Prod.snd

theorem values_cons (key value : String) (rest : Headers) (name : String) :
    values name ((key, value) :: rest) =
      if sameName key name then value :: values name rest else values name rest := by
  cases same : sameName key name <;> simp [values, same]

theorem get?_cons (key value : String) (rest : Headers) :
    get? ((key, value) :: rest) name = if sameName key name then some value else rest.get? name := by
  cases shape : sameName key name <;> simp [get?, shape]

theorem get?_eq_head? (name : String) (headers : Headers) : headers.get? name = (headers.values name).head? := by
  rw [get?, values, List.head?_map, List.head?_filter]

theorem get?_append (name value other : String) (headers : Headers) :
    (headers.append name value).get? other =
      if sameName name other then
        some (match headers.get? other with
          | some existing => existing ++ "," ++ value
          | none => value)
      else headers.get? other := by
  induction headers with
  | nil => rw [append, get?_cons]; rfl
  | cons header rest induction =>
      obtain ⟨key, existing⟩ := header
      rw [append]
      split
      · next here =>
        rw [get?_cons, get?_cons, sameName_congr here]
        split <;> rfl
      · next apart =>
        rw [get?_cons, get?_cons, induction]
        by_cases asked : sameName key other = true
        · have differ : ¬ sameName name other = true := fun same =>
            apart ((sameName_congr asked name).trans (sameName_comm other name ▸ same))
          rw [if_pos asked, if_pos asked, if_neg differ]
        · rw [if_neg asked, if_neg asked]

theorem get?_append_same (name value : String) (headers : Headers) :
    (headers.append name value).get? name =
      some (match headers.get? name with
        | some existing => existing ++ "," ++ value
        | none => value) := by
  rw [get?_append, if_pos (sameName_self name)]

theorem get?_append_other (apart : sameName name other = false) (value : String) (headers : Headers) :
    (headers.append name value).get? other = headers.get? other := by
  rw [get?_append, apart, if_neg Bool.false_ne_true]

/-- A name that stands already is not written again. -/
theorem names_append (name value : String) (headers : Headers) :
    (headers.append name value).map Prod.fst =
      if (headers.map Prod.fst).any (sameName name) then headers.map Prod.fst
      else headers.map Prod.fst ++ [name] := by
  induction headers with
  | nil => rfl
  | cons header rest induction =>
      obtain ⟨key, existing⟩ := header
      rw [append, List.map_cons, List.any_cons, sameName_comm name key]
      cases sameName key name with
      | true => rfl
      | false =>
          rw [if_neg Bool.false_ne_true, List.map_cons, induction, Bool.false_or]
          split <;> rfl

/-- A value that is added leaves the names different. -/
theorem distinct_append (distinct : (headers.map Prod.fst).Pairwise fun one two => sameName one two = false)
    (name value : String) :
    ((headers.append name value).map Prod.fst).Pairwise fun one two => sameName one two = false := by
  rw [names_append]
  split
  · exact distinct
  · next fresh =>
    refine List.pairwise_append.mpr ⟨distinct, List.pairwise_singleton _ _, fun key member last found => ?_⟩
    rw [List.mem_singleton.mp found, sameName_comm]
    exact Bool.eq_false_iff.mpr fun same => fresh (List.any_eq_true.mpr ⟨key, member, same⟩)

def addAll (added headers : Headers) : Headers :=
  added.foldl (fun headers header => headers.append header.1 header.2) headers

theorem distinct_addAll (distinct : (headers.map Prod.fst).Pairwise fun one two => sameName one two = false)
    (added : Headers) :
    ((addAll added headers).map Prod.fst).Pairwise fun one two => sameName one two = false := by
  induction added generalizing headers with
  | nil => exact distinct
  | cons header rest induction => exact induction (distinct_append distinct header.1 header.2)

/-- Behind the names that stand already come the new ones, each where it is used first. -/
theorem names_addAll (added headers : Headers) :
    (addAll added headers).map Prod.fst = headers.map Prod.fst ++
      ((added.map Prod.fst).filter fun name => !(headers.map Prod.fst).any (sameName name)).eraseDupsBy sameName := by
  induction added generalizing headers with
  | nil => exact (List.append_nil _).symm
  | cons header rest induction =>
      obtain ⟨name, value⟩ := header
      have step : addAll ((name, value) :: rest) headers = addAll rest (headers.append name value) := rfl
      rw [step, induction, names_append, List.map_cons, List.filter_cons]
      cases known : (headers.map Prod.fst).any (sameName name) with
      | true => rfl
      | false =>
          rw [if_neg Bool.false_ne_true, Bool.not_false, if_pos rfl, List.eraseDupsBy_cons, List.append_assoc,
            List.singleton_append, List.filter_filter]
          simp [Bool.and_comm]

/-- Under a name stand its values, those that stood there and those that were added, between commas. -/
theorem get?_addAll (added headers : Headers) (name : String) :
    (addAll added headers).get? name =
      match (headers.get? name).toList ++ values name added with
      | [] => none
      | first :: rest => some (String.intercalate "," (first :: rest)) := by
  induction added generalizing headers with
  | nil =>
      rw [show values name [] = [] from rfl, List.append_nil]
      cases shape : headers.get? name with
      | none => exact shape
      | some existing => simpa [addAll] using shape
  | cons header rest induction =>
      obtain ⟨key, value⟩ := header
      have step : addAll ((key, value) :: rest) headers = addAll rest (headers.append key value) := rfl
      rw [step, induction, get?_append, values_cons]
      by_cases same : sameName key name = true
      · rw [if_pos same, if_pos same]
        cases headers.get? name with
        | none => rfl
        | some existing =>
            refine congrArg some ?_
            apply String.toList_injective
            cases values name rest <;> simp
      · rw [if_neg same, if_neg same]

theorem get?_foldl_other (apart : sameName name other = false) (values : List String)
    (headers : Headers) :
    (values.foldl (fun headers value => append name value headers) headers).get? other =
      headers.get? other := by
  induction values generalizing headers with
  | nil => rfl
  | cons value rest induction => rw [List.foldl_cons, induction, get?_append_other apart]

/-- Values added one after the other to a header stand in it behind commas. -/
theorem get?_foldl_same (values : List String) (headers : Headers) :
    (values.foldl (fun headers value => append name value headers) headers).get? name =
      match (headers.get? name).toList ++ values with
      | [] => none
      | first :: rest => some (String.intercalate "," (first :: rest)) := by
  have named : Headers.values name (values.map fun value => (name, value)) = values := by
    simp [Headers.values, List.filter_map, sameName_self, Function.comp_def]
  have added := get?_addAll (values.map fun value => (name, value)) headers name
  rwa [named, addAll, List.foldl_map] at added

end Headers

namespace Request

theorem withHeader_addAll (added : Headers) (request : Request) :
    added.foldl (fun request header => request.withHeader header.1 header.2) request =
      { request with headers := Headers.addAll added request.headers } := by
  induction added generalizing request with
  | nil => rfl
  | cons header rest induction => rw [List.foldl_cons, induction]; rfl

/-- Headers that are added to a new request never repeat: their names are different in every case, in the
order in which they were used first and as they were spelled there, and under each stand its values
between commas in the order in which they were added. -/
theorem headers_merged (method : Method) (path : String) (added : Headers) :
    let built := added.foldl (fun request header => request.withHeader header.1 header.2)
      ({ method, path } : Request)
    (built.headers.map Prod.fst).Pairwise (fun one two => Headers.sameName one two = false) ∧
      built.headers.map Prod.fst = (added.map Prod.fst).eraseDupsBy Headers.sameName ∧
      ∀ name, built.headers.get? name =
        match Headers.values name added with
        | [] => none
        | first :: rest => some (String.intercalate "," (first :: rest)) := by
  intro built
  have same : built.headers = Headers.addAll added [] :=
    congrArg Request.headers (withHeader_addAll added { method, path })
  rw [same]
  refine ⟨Headers.distinct_addAll List.Pairwise.nil added, ?_, Headers.get?_addAll added []⟩
  have fresh : ((added.map Prod.fst).filter fun _ => true) = added.map Prod.fst :=
    List.filter_eq_self.mpr fun _ _ => rfl
  rw [Headers.names_addAll]
  exact congrArg (List.eraseDupsBy Headers.sameName) fresh

end Request

end QueryNotation
