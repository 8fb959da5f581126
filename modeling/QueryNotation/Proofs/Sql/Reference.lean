import Mathlib.Data.List.Dedup
import QueryNotation.Proofs.Metadata
import QueryNotation.Proofs.Sql.Denotation
import QueryNotation.Proofs.Sql.Mention

namespace QueryNotation.Sql

/-! # What the columns of a join refer to

A `SELECT` with joins names the main table and every embed, and each column stands behind one of these
names.  No name is checked against the others, so a column refers to one table exactly where the names
differ; and the metadata hold a fact for each name, not for each embed.
-/

open Text

variable {policy : KeyPolicy} {query : Query} {written : Written} {name other : String}

def lastPart (name : String) : String :=
  String.ofList ((pieces (· == '.') name.toList).getLast (pieces_ne_nil _ _))

/-- The name under which a table is known in a statement: its label, or its name without its schema. -/
def Source.visible (source : Source) : String :=
  folded (lastPart (source.label.getD source.path))

theorem lastPart_of_absent (plain : '.' ∉ name.toList) : lastPart name = name := by
  simp [lastPart, pieces_of_not_mem plain]

theorem not_mem_lastPart (name : String) : '.' ∉ (lastPart name).toList := by
  intro member
  rw [lastPart, String.toList_ofList] at member
  have apart := (of_mem_pieces (List.getLast_mem _) member).2
  cases apart

theorem not_mem_folded_iff : '.' ∉ (folded name).toList ↔ '.' ∉ name.toList := by
  unfold folded
  split
  · next bare =>
    have dot : isNameChar '.' = false := by decide
    exact iff_of_true (bare.toLower.absent dot) (bare.absent dot)
  · rfl

/-- The names that the columns of a `SELECT` stand behind. -/
def tableNames (query : Query) : List String :=
  query.table :: query.embeds.map Embed.name

/-- Every name is the name of one table exactly if the names differ as the database takes them and none
has a schema. -/
theorem count_visible_iff (names : List String) :
    (∀ name ∈ names, (names.map fun name => folded (lastPart name)).count (folded name) = 1) ↔
      (names.map folded).Nodup ∧ ∀ name ∈ names, '.' ∉ name.toList := by
  have plainly (plain : ∀ name ∈ names, '.' ∉ name.toList) :
      (names.map fun name => folded (lastPart name)) = names.map folded :=
    List.map_congr_left fun name listed => congrArg folded (lastPart_of_absent (plain name listed))
  constructor
  · intro once
    have plain : ∀ name ∈ names, '.' ∉ name.toList := by
      intro name listed
      have found : folded name ∈ names.map fun name => folded (lastPart name) := by
        rw [← List.count_pos_iff, once name listed]
        exact Nat.one_pos
      obtain ⟨source, _, same⟩ := List.mem_map.mp found
      rw [← not_mem_folded_iff, ← same, not_mem_folded_iff]
      exact not_mem_lastPart source
    refine ⟨List.nodup_iff_count_eq_one.mpr fun seen found => ?_, plain⟩
    obtain ⟨name, listed, rfl⟩ := List.mem_map.mp found
    rw [← plainly plain]
    exact once name listed
  · intro ⟨distinct, plain⟩ name listed
    rw [plainly plain]
    exact List.count_eq_one_of_mem distinct (List.mem_map_of_mem listed)

section Sources

variable {separator : String}

@[simp]
theorem sources_nil : sources [] = [] :=
  rfl

@[simp]
theorem sources_plain (text : String) (pieces : List Piece) :
    sources (.plain text :: pieces) = sources pieces :=
  rfl

@[simp]
theorem sources_source (source : Source) (pieces : List Piece) :
    sources (.source source :: pieces) = source :: sources pieces :=
  rfl

@[simp]
theorem sources_mention (mention : Mention) (pieces : List Piece) :
    sources (.mention mention :: pieces) = sources pieces :=
  rfl

@[simp]
theorem sources_append (front back : List Piece) : sources (front ++ back) = sources front ++ sources back :=
  List.filterMap_append

@[simp]
theorem sources_flatMap {α : Type} (items : List α) (pieces : α → List Piece) :
    sources (items.flatMap pieces) = items.flatMap fun item => sources (pieces item) :=
  List.filterMap_flatMap

@[simp]
theorem sources_separated (items : List (List Piece)) :
    sources (Piece.separated separator items) = items.flatMap sources :=
  Piece.filterMap_separated (fun _ => rfl) items

@[simp]
theorem sources_clause (lead : String) (items : List (List Piece)) :
    sources (Piece.clause lead separator items) = items.flatMap sources :=
  Piece.filterMap_clause (fun _ => rfl) lead items

end Sources

section Tables

variable {α : Type} {own : List α} {part : Embed → List α} {pieces : Option String → α → List Piece}

theorem sources_eachTable (none : ∀ qualifier item, sources (pieces qualifier item) = []) :
    (eachTable query own part pieces).flatMap sources = [] := by
  rw [List.flatMap_eq_nil_iff]
  intro item listed
  obtain here | behind := List.mem_append.mp listed
  · obtain ⟨_, _, rfl⟩ := List.mem_map.mp here
    exact none _ _
  · obtain ⟨embed, _, inside⟩ := List.mem_flatMap.mp behind
    obtain ⟨_, _, rfl⟩ := List.mem_map.mp inside
    exact none _ _

/-- What is said of each table stands behind its name. -/
theorem table_of_eachTable (joined : query.embeds ≠ [])
    (behind : ∀ qualifier item, ∀ mention ∈ mentions (pieces qualifier item), mention.table = qualifier) :
    ∀ mention ∈ (eachTable query own part pieces).flatMap mentions,
      ∃ name ∈ tableNames query, mention.table = some name := by
  have main : mainQualifier query = some query.table := if_neg (by simpa using joined)
  intro mention listed
  obtain ⟨item, inside, listed⟩ := List.mem_flatMap.mp listed
  obtain here | later := List.mem_append.mp inside
  · obtain ⟨_, _, rfl⟩ := List.mem_map.mp here
    exact ⟨query.table, List.mem_cons_self, (behind _ _ mention listed).trans main⟩
  · obtain ⟨embed, given, later⟩ := List.mem_flatMap.mp later
    obtain ⟨_, _, rfl⟩ := List.mem_map.mp later
    exact ⟨embed.name, List.mem_cons_of_mem _ (List.mem_map_of_mem given), behind _ _ mention listed⟩

end Tables

theorem sources_conditionPieces (qualifier : Option String) (filter : Filter) :
    sources (conditionPieces qualifier filter) = [] := by
  unfold conditionPieces
  split <;> rfl

theorem table_of_condition (qualifier : Option String) (filter : Filter) :
    ∀ mention ∈ mentions (conditionPieces qualifier filter), mention.table = qualifier := by
  unfold conditionPieces
  split <;> simp

/-- A `SELECT` names the main table and the table of each embed. -/
theorem sources_selectPieces (policy : KeyPolicy) (query : Query) :
    sources (selectPieces policy query) =
      ⟨query.table, none⟩ :: query.embeds.map fun embed => ⟨embed.relation, embed.label⟩ := by
  have outputs : (outputPieces query).flatMap sources = [] := by
    unfold outputPieces
    dsimp only
    split
    · rfl
    · exact sources_eachTable fun _ _ => rfl
  have filters : (eachTable query query.filters Embed.filters conditionPieces).flatMap sources = [] :=
    sources_eachTable sources_conditionPieces
  have orders : (eachTable query query.order Embed.order orderPieces).flatMap sources = [] :=
    sources_eachTable fun _ _ => rfl
  have joins (embed : Embed) : sources (joinPieces policy query.table embed) = [⟨embed.relation, embed.label⟩] := rfl
  simp only [selectPieces, sources_append, sources_plain, sources_source, sources_separated, sources_clause,
    sources_flatMap, outputs, filters, orders, joins, sources_nil, ← List.map_eq_flatMap]
  simp

/-- What a `SELECT` mentions, clause by clause. -/
theorem mentions_selectPieces (policy : KeyPolicy) (query : Query) :
    mentions (selectPieces policy query) =
      (outputPieces query).flatMap mentions ++
        ((query.embeds.flatMap fun embed =>
          [⟨.key, some embed.name, policy.foreignKey query.table⟩, ⟨.key, some query.table, policy.primaryKey⟩]) ++
        ((eachTable query query.filters Embed.filters conditionPieces).flatMap mentions ++
          (eachTable query query.order Embed.order orderPieces).flatMap mentions)) := by
  simp [selectPieces, joinPieces, List.append_assoc]

/-- Every column of a `SELECT` with joins stands behind the name of a table. -/
theorem table_of_mention (joined : query.embeds ≠ []) :
    ∀ mention ∈ mentions (selectPieces policy query), ∃ name ∈ tableNames query, mention.table = some name := by
  intro mention listed
  rw [mentions_selectPieces, List.mem_append, List.mem_append, List.mem_append] at listed
  obtain output | key | condition | order := listed
  · unfold outputPieces at output
    dsimp only at output
    split at output
    · have main : mainQualifier query = some query.table := if_neg (by simpa using joined)
      refine ⟨query.table, List.mem_cons_self, ?_⟩
      rw [← main]
      simp only [allPieces, List.flatMap_singleton, mentions_mention, mentions_nil, List.mem_singleton] at output
      rw [output]
    · exact table_of_eachTable joined (by simp [columnPieces]) mention output
  · obtain ⟨embed, given, inside⟩ := List.mem_flatMap.mp key
    obtain rfl | inside := List.mem_cons.mp inside
    · exact ⟨embed.name, List.mem_cons_of_mem _ (List.mem_map_of_mem given), rfl⟩
    · obtain rfl := List.mem_singleton.mp inside
      exact ⟨query.table, List.mem_cons_self, rfl⟩
  · exact table_of_eachTable joined table_of_condition mention condition
  · exact table_of_eachTable joined (by simp [orderPieces]) mention order

/-- The key of a join stands behind its name, and the one it refers to behind that of the main table. -/
theorem exists_mention_of_table (joined : query.embeds ≠ []) (listed : name ∈ tableNames query) :
    ∃ mention ∈ mentions (selectPieces policy query), mention.table = some name := by
  have key {embed : Embed} (given : embed ∈ query.embeds) {mention : Mention}
      (either : mention = ⟨.key, some embed.name, policy.foreignKey query.table⟩ ∨
        mention = ⟨.key, some query.table, policy.primaryKey⟩) : mention ∈ mentions (selectPieces policy query) := by
    rw [mentions_selectPieces]
    apply List.mem_append_right
    apply List.mem_append_left
    refine List.mem_flatMap.mpr ⟨embed, given, ?_⟩
    obtain first | second := either
    · exact List.mem_cons.mpr (.inl first)
    · exact List.mem_cons_of_mem _ (List.mem_singleton.mpr second)
  obtain main | behind := List.mem_cons.mp listed
  · obtain ⟨embed, given⟩ := List.exists_mem_of_ne_nil _ joined
    exact ⟨_, key given (.inr rfl), congrArg some main.symm⟩
  · obtain ⟨embed, given, rfl⟩ := List.mem_map.mp behind
    exact ⟨_, key given (.inl rfl), rfl⟩

theorem visible_sources (policy : KeyPolicy) (query : Query) :
    (sources (selectPieces policy query)).map Source.visible =
      (tableNames query).map fun name => folded (lastPart name) := by
  rw [sources_selectPieces, tableNames, List.map_cons, List.map_cons, List.map_map, List.map_map]
  rfl

def isJoinKey (key : String) : Bool :=
  "fk.".toList.isPrefixOf key.toList

def joinKeys (metadata : Metadata) : List String :=
  (Metadata.keys metadata).filter isJoinKey

/-- What the metadata say of the answer. -/
def responseFacts (query : Query) : List (String × String) :=
  (query.count.map fun mode => ("count", mode.word)).toList ++
    (if query.head then [("head", "true")] else []) ++
    (query.single.map fun single =>
      match single with
      | .one => ("single", "one")
      | .maybeOne => ("single", "maybe_one")).toList

theorem responseMetadata_eq (query : Query) (metadata : Metadata) :
    responseMetadata query metadata = Metadata.addAll Prod.fst Prod.snd (responseFacts query) metadata := by
  unfold responseMetadata responseFacts
  cases query.count <;> cases query.head <;> rcases query.single with _ | (_ | _) <;> rfl

theorem isJoinKey_responseFacts : ∀ fact ∈ responseFacts query, isJoinKey fact.1 = false := by
  unfold responseFacts
  cases query.count <;> cases query.head <;> rcases query.single with _ | (_ | _) <;> simp <;> decide

theorem isJoinKey_name (name : String) : isJoinKey ("fk." ++ name) = true := by
  simp [isJoinKey]

theorem joinKey_injective : Function.Injective ("fk." ++ · : String → String) := by
  intro name other same
  have texts := congrArg String.toList same
  simp only [String.toList_append, List.append_right_inj] at texts
  exact String.toList_injective texts

theorem keyFacts_eq (policy : KeyPolicy) (query : Query) :
    keyFacts policy query = Metadata.addAll (fun embed : Embed => "fk." ++ embed.name)
      (fun embed => (plannedJoin policy query.table embed).key) query.embeds [] :=
  rfl

/-- Each embed finds its key, which embeds of one name share. -/
theorem get?_joinKey {embed : Embed} (given : embed ∈ query.embeds) :
    (responseMetadata query (keyFacts policy query)).get? ("fk." ++ embed.name) =
      some (plannedJoin policy query.table embed).key := by
  have absent : ∀ fact ∈ responseFacts query, fact.1 ≠ "fk." ++ embed.name := by
    intro fact listed same
    have other := isJoinKey_responseFacts fact listed
    rw [same, isJoinKey_name] at other
    cases other
  rw [responseMetadata_eq, Metadata.get?_addAll_of_absent absent, keyFacts_eq]
  refine Metadata.get?_addAll (fun item _ same => ?_) (.inr ⟨embed, given, rfl⟩)
  have named : item.name = embed.name := joinKey_injective same
  rw [plannedJoin, plannedJoin, named]

theorem mem_joinKeys {key : String} :
    key ∈ joinKeys (responseMetadata query (keyFacts policy query)) ↔
      key ∈ (query.embeds.map Embed.name).map ("fk." ++ ·) := by
  rw [joinKeys, List.mem_filter, responseMetadata_eq, Metadata.mem_keys_addAll, keyFacts_eq,
    Metadata.mem_keys_addAll, List.map_map, List.mem_map]
  constructor
  · intro ⟨listed, joins⟩
    obtain ⟨fact, here, same⟩ | named | absent := listed
    · rw [← same, isJoinKey_responseFacts fact here] at joins
      cases joins
    · exact named
    · cases absent
  · intro ⟨embed, given, same⟩
    exact ⟨.inr (.inl ⟨embed, given, same⟩), same ▸ isJoinKey_name embed.name⟩

theorem nodup_joinKeys (policy : KeyPolicy) (query : Query) :
    (joinKeys (responseMetadata query (keyFacts policy query))).Nodup := by
  apply List.Nodup.filter
  apply Metadata.nodup_of_ascending
  rw [responseMetadata_eq, keyFacts_eq]
  exact Metadata.ascending_addAll (Metadata.ascending_addAll List.Pairwise.nil)

/-- A list without repetitions of the members of another is as long exactly if that has none either. -/
theorem length_eq_iff_nodup {distinct names : List String} (nodup : distinct.Nodup)
    (members : ∀ name, name ∈ distinct ↔ name ∈ names) : distinct.length = names.length ↔ names.Nodup := by
  constructor
  · intro lengths
    have once : distinct.Perm names.dedup :=
      (List.perm_ext_iff_of_nodup nodup names.nodup_dedup).mpr fun name => (members name).trans List.mem_dedup.symm
    have whole : names.dedup = names :=
      (List.dedup_sublist names).eq_of_length (once.length_eq.symm.trans lengths)
    exact List.dedup_eq_self.mp whole
  · intro each
    exact ((List.perm_ext_iff_of_nodup nodup each).mpr members).length_eq

/-- What a `SELECT` with joins says of its tables and keys: it names the main table and the table of each
embed, each column stands behind one of their names, and each embed finds its key in the metadata.  Each
column refers to one table exactly if the names differ and none has a schema, and the metadata hold a key
for each embed exactly if the names of the embeds differ. -/
structure JoinsTables (policy : KeyPolicy) (query : Query) (written : Written) : Prop where
  text : written.text = Piece.join (selectPieces policy query)
  named : sources (selectPieces policy query) =
    ⟨query.table, none⟩ :: query.embeds.map fun embed => ⟨embed.relation, embed.label⟩
  behind : ∀ mention ∈ mentions (selectPieces policy query), ∃ name ∈ tableNames query, mention.table = some name
  once : (∀ mention ∈ mentions (selectPieces policy query), ∀ name ∈ mention.table,
      ((sources (selectPieces policy query)).map Source.visible).count (folded name) = 1) ↔
    ((tableNames query).map folded).Nodup ∧ ∀ name ∈ tableNames query, '.' ∉ name.toList
  keyed : ∀ embed ∈ query.embeds,
    written.metadata.get? ("fk." ++ embed.name) = some (plannedJoin policy query.table embed).key
  counted : (joinKeys written.metadata).length = query.embeds.length ↔ (query.embeds.map Embed.name).Nodup

theorem joined_references (joined : query.embeds ≠ []) (wrote : writeSelect policy query = .ok written) :
    JoinsTables policy query written := by
  obtain ⟨text, metadata⟩ := join_selectPieces wrote
  refine ⟨text, sources_selectPieces policy query, table_of_mention joined, ?_, ?_, ?_⟩
  · rw [visible_sources, ← count_visible_iff]
    constructor
    · intro once name listed
      obtain ⟨mention, mentioned, behind⟩ := exists_mention_of_table joined listed
      exact once mention mentioned name behind
    · intro once mention mentioned name behind
      obtain ⟨table, listed, same⟩ := table_of_mention joined mention mentioned
      obtain rfl := Option.some.inj (same.symm.trans behind)
      exact once table listed
  · rw [metadata]
    exact fun embed given => get?_joinKey given
  · have counted := length_eq_iff_nodup (nodup_joinKeys policy query) fun _ => mem_joinKeys
    rw [metadata, ← List.nodup_map_iff joinKey_injective, ← counted, List.length_map, List.length_map]

/-- The posts of a user by title, and again by year. -/
def usersWithPostsTwice : Query where
  table := "users"
  operation := .select
  columns := [{ name := "id" }]
  embeds := [
    { relation := "posts", columns := [{ name := "title" }] },
    { relation := "posts", columns := [{ name := "year" }] }]

/-- Two embeds of one table are accepted and joined under one name, with one fact for both. -/
theorem posts_named_twice :
    usersWithPostsTwice.validate .sql = .ok () ∧
      (writeSelect (.ofOptions {}) usersWithPostsTwice).map Written.text = .ok
        ("SELECT users.id, posts.title, posts.year FROM users" ++
          " LEFT JOIN posts ON posts.users_id = users.id LEFT JOIN posts ON posts.users_id = users.id") ∧
      (writeSelect (.ofOptions {}) usersWithPostsTwice).map Written.metadata =
        .ok [("fk.posts", "posts.users_id = users.id")] ∧
      (sources (selectPieces (.ofOptions {}) usersWithPostsTwice)).map Source.visible = ["users", "posts", "posts"] := by
  decide +kernel

/-- The posts of a user, and the user who invited them. -/
def usersInvited : Query where
  table := "users"
  operation := .select
  embeds := [
    { relation := "posts", columns := [{ name := "title" }] },
    { relation := "users", label := some "host", inner := true, columns := [{ name := "name" }],
      order := [{ column := "name" }] }]

/-- Under a label, a table may be joined to itself. -/
theorem joined_references_labelled : ∃ written,
    usersInvited.embeds ≠ [] ∧ writeSelect (.ofOptions {}) usersInvited = .ok written ∧
      (∀ mention ∈ mentions (selectPieces (.ofOptions {}) usersInvited), ∀ name ∈ mention.table,
        ((sources (selectPieces (.ofOptions {}) usersInvited)).map Source.visible).count (folded name) = 1) ∧
      (joinKeys written.metadata).length = 2 := by
  have wrote : writeSelect (.ofOptions {}) usersInvited = .ok _ := rfl
  have joined : usersInvited.embeds ≠ [] := nofun
  have tables := joined_references joined wrote
  exact ⟨_, joined, wrote, tables.once.mpr (by decide +kernel), tables.counted.mpr (by decide +kernel)⟩

end QueryNotation.Sql
