import QueryNotation.Proofs.Chain.Depth
import QueryNotation.Proofs.Chain.Reading
import QueryNotation.Proofs.Chain.SelectPlace
import QueryNotation.Proofs.Rest.Routing

namespace QueryNotation

/-! # What the bound on brackets bounds

An embed takes one bracket of the select list that asks for it, and an argument stands in the
bracket of its call, so neither nests deeper than brackets may.  Nothing that is read afterwards adds
to the embeds: filters, orders and limits change what is said of an embed and leave those below it.
-/

open Text

namespace Embed

variable {bound : Nat} {embeds : List Embed}

theorem greatestDepth_le_iff : greatestDepth embeds ≤ bound ↔ ∀ embed ∈ embeds, embed.depth ≤ bound := by
  induction embeds with
  | nil => simp [greatestDepth]
  | cons embed rest induction => rw [greatestDepth, Nat.max_le, induction, List.forall_mem_cons]

mutual

/-- A change of what is said of each embed leaves its depth. -/
theorem depth_mapEach (change : Embed → Embed) : (embed : Embed) → (embed.mapEach change).depth = embed.depth
  | { embeds, .. } => by rw [mapEach, depth, depth, greatestDepth_mapAll change embeds]

theorem greatestDepth_mapAll (change : Embed → Embed) :
    (embeds : List Embed) → greatestDepth (mapAll change embeds) = greatestDepth embeds
  | [] => by rw [mapAll]
  | embed :: rest => by
    rw [mapAll, greatestDepth, greatestDepth, depth_mapEach change embed, greatestDepth_mapAll change rest]

end

theorem greatestDepth_editAll (edits : List (String × Rest.EmbedEdit)) (embeds : List Embed) :
    greatestDepth (Rest.editAll edits embeds) = greatestDepth embeds := by
  induction embeds generalizing edits with
  | nil => rw [Rest.editAll_empty]
  | cons embed rest induction =>
      rw [Rest.editAll_cons, greatestDepth, greatestDepth, induction, depth_eq, depth_eq,
        Rest.EmbedEdit.applyAll_eq]

end Embed

theorem Selection.shallow_ofChars {bound : Nat} {text : List Char} {found : Selection}
    (read : ofChars bound text = .ok found) : Embed.greatestDepth found.embeds ≤ bound := by
  refine ofChars_invariant (fun bound embeds => Embed.greatestDepth embeds ≤ bound)
    (fun _ => by simp [Embed.greatestDepth]) ?_ read
  intro bound embeds embed before _ below
  have last : embed.depth ≤ bound + 1 := by
    rw [Embed.depth_eq, Nat.add_comm]
    exact Nat.succ_le_succ below
  rw [Embed.greatestDepth_le_iff] at before ⊢
  exact List.forall_mem_append.mpr ⟨before, List.forall_mem_singleton.mpr last⟩

namespace Rest

open Embed

variable {options : Options}

theorem shallow_chosenEmbeds {bound : Nat} {pairs : List (String × String)} {embeds : List Embed}
    (chosen : chosenEmbeds bound pairs = .ok embeds) : greatestDepth embeds ≤ bound := by
  rw [chosenEmbeds_eq] at chosen
  split at chosen
  · obtain ⟨selection, read, rfl⟩ := ok_of_map chosen
    exact Selection.shallow_ofChars read
  · obtain rfl := Except.ok.inj chosen
    simp [greatestDepth]

theorem shallow_read {request : RawRequest} {parsed : Parsed} (accepted : read options request = .ok parsed) :
    greatestDepth parsed.query.embeds ≤ options.maxDepth := by
  obtain ⟨chosen, select, shape, -⟩ := filtersFor_of_read accepted
  rw [← greatestDepth_mapAll bare, shape]
  exact shallow_chosenEmbeds select

end Rest

namespace Chain

open Embed

variable {options : Options} {parsed next : Parsed}

theorem shallow_startQuery {root : QueryRoot} {query : Query} (started : startQuery root = .ok query) :
    greatestDepth query.embeds ≤ options.maxDepth := by
  simp [(isStart_startQuery started).embeds, greatestDepth]

theorem shallow_applyCall {call : Call} (shallow : greatestDepth parsed.query.embeds ≤ options.maxDepth)
    (applied : applyCall options parsed call = .ok next) :
    greatestDepth next.query.embeds ≤ options.maxDepth := by
  rcases applyCall_cases applied with ⟨columns, count, head, rfl, applied⟩ | reached
  · obtain ⟨selection, read, applied⟩ := ok_of_bind applied
    obtain rfl := Except.ok.inj applied
    exact Selection.shallow_ofChars read
  · rw [reached]
    exact (greatestDepth_editAll call.edits parsed.query.embeds).symm ▸ shallow

theorem shallow_applySegment {segment : Segment} (shallow : greatestDepth parsed.query.embeds ≤ options.maxDepth)
    (applied : applySegment options parsed segment = .ok next) :
    greatestDepth next.query.embeds ≤ options.maxDepth := by
  cases segment with
  | property name =>
      obtain rfl := Except.ok.inj applied
      exact shallow
  | call method values =>
      obtain ⟨call, _, applied⟩ := ok_of_bind applied
      exact shallow_applyCall shallow applied

theorem embeds_finish (parsed : Parsed) : (finish parsed).query.embeds = parsed.query.embeds := by
  unfold finish
  dsimp only
  split <;> rfl

theorem shallow_readQuery {text : String} (accepted : readQuery options text = .ok parsed) :
    greatestDepth parsed.query.embeds ≤ options.maxDepth :=
  readQuery_invariant (fun parsed => greatestDepth parsed.query.embeds ≤ options.maxDepth) shallow_startQuery
    shallow_applySegment (fun shallow => (embeds_finish _).symm ▸ shallow) accepted

end Chain

/-- Where `bound` brackets may be open at once, the arguments of calls nest one level less, whether they
are JSON or literals of client code, and the embeds of a select list nest no deeper.  So no embed of a
query that is read is deeper than the options allow. -/
theorem nesting_bounded (bound : Nat) (options : Options) :
    (∀ chain found, Chain.segments bound chain = .ok found →
      ∀ name arguments, .call name arguments ∈ found →
        ∀ value ∈ arguments, Chain.levels value + 1 ≤ bound) ∧
    (∀ text selection, Selection.ofText bound text = .ok selection →
      ∀ embed ∈ selection.embeds, embed.depth ≤ bound) ∧
    (∀ request parsed, Rest.read options request = .ok parsed →
      ∀ embed ∈ parsed.query.embeds, embed.depth ≤ options.maxDepth) ∧
    (∀ text parsed, Chain.readQuery options text = .ok parsed →
      ∀ embed ∈ parsed.query.embeds, embed.depth ≤ options.maxDepth) := by
  refine ⟨?arguments, ?lists, ?requests, ?chains⟩
  case arguments =>
    intro chain found read name arguments member
    exact Chain.isWithin_readSegments read (.call name arguments) member
  case lists => exact fun text selection read => Embed.greatestDepth_le_iff.mp (Selection.shallow_ofChars read)
  case requests => exact fun request parsed read => Embed.greatestDepth_le_iff.mp (Rest.shallow_read read)
  case chains => exact fun text parsed read => Embed.greatestDepth_le_iff.mp (Chain.shallow_readQuery read)

/-- Arguments of both kinds and embeds reach the bound. -/
theorem nesting_bounded_reached :
    (∃ values, Chain.segments 3 "f([[1]], \x7ba: [2]\x7d)".toList = .ok [.call "f" values] ∧
      values.map Chain.levels = [2, 2] ∧ ∀ value ∈ values, Chain.levels value + 1 ≤ 3) ∧
    (∃ selection, Selection.ofText 3 "a(b(c(d)))" = .ok selection ∧
      selection.embeds.map Embed.depth = [3] ∧ ∀ embed ∈ selection.embeds, embed.depth ≤ 3) ∧
    (∃ parsed, Rest.read { maxDepth := 3 } { method := "GET", path := "/t", query := "select=a(b(c(d)))" } =
        .ok parsed ∧
      parsed.query.embeds.map Embed.depth = [3] ∧ ∀ embed ∈ parsed.query.embeds, embed.depth ≤ 3) ∧
    (∃ parsed, Chain.readQuery { maxDepth := 3 } "db.from('t').select('a(b(c(d)))')" = .ok parsed ∧
      parsed.query.embeds.map Embed.depth = [3] ∧ ∀ embed ∈ parsed.query.embeds, embed.depth ≤ 3) := by
  obtain ⟨arguments, lists, requests, chains⟩ := nesting_bounded 3 { maxDepth := 3 }
  have given : Chain.segments 3 "f([[1]], \x7ba: [2]\x7d)".toList = .ok [.call "f"
      [.array [.array [.number (.integer 1)]], .object [("a", .array [.number (.integer 2)])]]] := rfl
  have listed : (Selection.ofText 3 "a(b(c(d)))").map (fun selection => selection.embeds.map Embed.depth) =
      .ok [3] := by decide +kernel
  have requested : (Rest.read { maxDepth := 3 } { method := "GET", path := "/t", query := "select=a(b(c(d)))" }).map
      (fun parsed => parsed.query.embeds.map Embed.depth) = .ok [3] := by decide +kernel
  have chained : (Chain.readQuery { maxDepth := 3 } "db.from('t').select('a(b(c(d)))')").map
      (fun parsed => parsed.query.embeds.map Embed.depth) = .ok [3] := by decide +kernel
  obtain ⟨selection, list, listDepth⟩ := ok_of_map listed
  obtain ⟨request, asked, requestDepth⟩ := ok_of_map requested
  obtain ⟨chain, called, chainDepth⟩ := ok_of_map chained
  refine ⟨⟨_, given, ?_, arguments _ _ given "f" _ List.mem_cons_self⟩,
    ⟨selection, list, listDepth, lists _ _ list⟩, ⟨request, asked, requestDepth, requests _ _ asked⟩,
    ⟨chain, called, chainDepth, chains _ _ called⟩⟩
  simp [Chain.levels, Chain.itemLevels, Chain.fieldLevels]

end QueryNotation
