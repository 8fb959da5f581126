import QueryNotation.Column
import QueryNotation.Filter

namespace QueryNotation

/-! # Embeds

An embed is a related table asked for along with the main one.  Embeds nest, and
each is addressed by the names on the way to it, joined by dots.
-/

/-- A related table and what is wanted of it. -/
structure Embed where
  relation : String
  label : Option String := none
  /-- Rows of the main table without related rows are left out. -/
  inner : Bool := false
  columns : List Column
  filters : List Filter := []
  order : List OrderItem := []
  limit : Option UInt64 := none
  embeds : List Embed := []
deriving Repr, Inhabited

namespace Embed

/-- The name an embed is addressed by: its label, else its relation. -/
def name (embed : Embed) : String :=
  embed.label.getD embed.relation

mutual

def depth : Embed → Nat
  | { embeds, .. } => 1 + greatestDepth embeds

/-- The greatest number of levels in a list of embeds. -/
def greatestDepth : List Embed → Nat
  | [] => 0
  | embed :: rest => max (depth embed) (greatestDepth rest)

end

mutual

/-- The item of a select list: `label:relation!inner(columns)`. -/
def selectItem : Embed → String
  | { relation, label, inner, columns, embeds, .. } =>
    (match label with
      | some label => label ++ ":"
      | none => "") ++
    relation ++ (if inner then "!inner" else "") ++
    "(" ++ String.intercalate "," (columns.map Column.text ++ selectItems embeds) ++ ")"

def selectItems : List Embed → List String
  | [] => []
  | embed :: rest => selectItem embed :: selectItems rest

end

mutual

def pathsFrom (path : String) (embed : Embed) : List (String × Embed) :=
  (path, embed) ::
    match embed with
    | { embeds, .. } => pathsBelow path embeds

/-- The embeds of a list and those below them, each with its path below `path`. -/
def pathsBelow (path : String) : List Embed → List (String × Embed)
  | [] => []
  | embed :: rest => pathsFrom (path ++ "." ++ embed.name) embed ++ pathsBelow path rest

end

/-- Every embed with its dotted path, parents before children. -/
def paths (embeds : List Embed) : List (String × Embed) :=
  embeds.flatMap fun embed => pathsFrom embed.name embed

/-- The embeds with the first one that satisfies `here` changed, if there is one. -/
def updateFirst? (here : Embed → Bool) (change : Embed → Option Embed) :
    List Embed → Option (List Embed)
  | [] => none
  | embed :: rest =>
    if here embed then (change embed).map (· :: rest)
    else (updateFirst? here change rest).map (embed :: ·)

/-- The embeds with the one at the end of a list of names changed, if there is one. -/
def updateAt? (change : Embed → Embed) : List String → List Embed → Option (List Embed)
  | [], _ => none
  | [name], embeds => updateFirst? (·.name = name) (fun embed => some (change embed)) embeds
  | name :: names, embeds =>
    updateFirst? (·.name = name)
      (fun embed => (updateAt? change names embed.embeds).map fun below =>
        { embed with embeds := below })
      embeds

def at? : List String → List Embed → Option Embed
  | [], _ => none
  | [name], embeds => embeds.find? (·.name = name)
  | name :: names, embeds => (embeds.find? (·.name = name)).bind fun embed => at? names embed.embeds

def pathNames (path : String) : List String :=
  (Text.pieces (· == '.') path.toList).map String.ofList

end Embed

end QueryNotation
