import Persistence.Declaration.Attribute

/-!
# Sample declarations

Declarations of entity types that use all that a declaration can say: a blog with users and posts,
categories that refer to each other, tables with soft deletion and with options of their own, and
a type with fields of every kind.
-/

namespace Persistence.Sample

/-! ## Attributes -/

/-- An item that is assigned a text. -/
def textItem (name s : String) : AttributeItem := .assign name (.text s)

/-- An item that is assigned an integer. -/
def sizeItem (name : String) (n : Int) : AttributeItem := .assign name (.integer n)

def tableOf (name : String) (more : List AttributeItem) : Attribute :=
  ⟨"table", some (textItem "name" name :: more)⟩

def json (items : List AttributeItem) : Attribute := ⟨jsonAttributeName, some items⟩

/-- The rule under which JSON has names in camel case. -/
def camel : AttributeItem := textItem "rename_all" "camelCase"

def column (items : List AttributeItem) : Attribute := ⟨"column", some items⟩

def plainColumn : Attribute := ⟨"column", none⟩

def key (items : List AttributeItem) : Attribute := ⟨primaryKeyAttributeName, some items⟩

def plainKey : Attribute := ⟨primaryKeyAttributeName, none⟩

def refersTo (entity property : String) (more : List AttributeItem) : Attribute :=
  ⟨"foreign_key", some (textItem "entity" entity :: textItem "property" property :: more)⟩

def relatesTo (entity source target : String) (more : List AttributeItem) : Attribute :=
  ⟨"relation",
    some
      (textItem "entity" entity :: textItem "source" source :: textItem "target" target :: more)⟩

/-! ## Declarations -/

def user : Declaration where
  name := "User"
  shape := .record
  attributes := [tableOf "user" [], json [camel]]
  fields :=
    [⟨"id", "Option<i64>", [key [.flag "auto_increment"]]⟩,
     ⟨"user_name", "String",
       [column
         [textItem "name" "user_name", sizeItem "length" 64, textItem "unique_key" "name"]]⟩,
     ⟨"age", "Option<i32>", [plainColumn]⟩,
     ⟨"posts", "Option<Vec<Post>>", [relatesTo "Post" "id" "author_id" [.flag "many"]]⟩]

def post : Declaration where
  name := "Post"
  shape := .record
  attributes := [tableOf "post" [.flag "soft_delete"], json [camel]]
  fields :=
    [⟨"id", "Option<i64>", [key [.flag "auto_increment"]]⟩,
     ⟨"title", "String", [column [sizeItem "length" 128]]⟩,
     ⟨"author_id", "i64", [refersTo "User" "id" []]⟩,
     ⟨"author", "Option<User>", [relatesTo "User" "author_id" "id" []]⟩]

def auditLog : Declaration where
  name := "AuditLog"
  shape := .record
  attributes := [tableOf "audit_log" []]
  fields := [⟨"message", "String", [column [sizeItem "length" 512]]⟩]

def category : Declaration where
  name := "Category"
  shape := .record
  attributes := [tableOf "category" []]
  fields :=
    [⟨"id", "i64", [plainKey]⟩,
     ⟨"parent_id", "Option<i64>", [refersTo "Category" "id" []]⟩]

def archive : Declaration where
  name := "Archive"
  shape := .record
  attributes := [tableOf "archive" [.flag "soft_delete"]]
  fields :=
    [⟨"id", "i64", [plainKey]⟩,
     ⟨"status", "Option<String>", [column [textItem "delete_value" "gone"]]⟩,
     ⟨"revision", "Option<i64>", [column [textItem "delete_value_fn" "next_revision"]]⟩]

def place : Declaration where
  name := "Place"
  shape := .record
  attributes := [tableOf "place" []]
  fields :=
    [⟨"id", "i64", [plainKey]⟩,
     ⟨"location", "GeometryPoint", [plainColumn]⟩,
     ⟨"visited_at", "NaiveDateTime", [plainColumn]⟩]

def grid : Declaration where
  name := "Grid"
  shape := .record
  attributes := [tableOf "grid" []]
  fields :=
    [⟨"id", "i64", [plainKey]⟩,
     ⟨"cells", "BTreeMap<(i64, i64), String>",
       [plainColumn, json [textItem "deserialize_with" "cells"]]⟩]

def ledger : Declaration where
  name := "Ledger"
  shape := .record
  attributes :=
    [tableOf "ledger"
      [textItem "charset" "latin1", textItem "engine" "MyISAM", .flag "soft_delete"]]
  fields :=
    [⟨"id", "i64", [key [textItem "column_type" "bigint"]]⟩,
     ⟨"amount", "Option<f64>",
       [column
         [textItem "column_type" "double", sizeItem "length" 12, sizeItem "precision" 2,
          .assign "default" (.float (Binary64.ofRatio false 1 2))]]⟩,
     ⟨"status", "Option<String>", [column [textItem "delete_value_fn" "stamp"]]⟩,
     ⟨"left", "Option<String>",
       [column [textItem "unique_key" "pair", textItem "unique_key" "left"]]⟩,
     ⟨"right", "Option<String>", [column [textItem "unique_key" "pair"]]⟩,
     ⟨"note", "Option<String>", []⟩]

/-- A type without a table. -/
def summary : Declaration where
  name := "Summary"
  shape := .record
  attributes := []
  fields := [⟨"total", "i64", []⟩]

/-- A type with fields of every kind. -/
def kinds : Declaration where
  name := "Kinds"
  shape := .record
  attributes :=
    [tableOf "kinds" [textItem "collate" "utf8_bin"], json [camel, .flag "deny_unknown_fields"]]
  fields :=
    [⟨"the_id", "u64",
       [key [textItem "name" "k_id", textItem "column_type" "BIGINT", sizeItem "length" 20],
        json [.flag "default"]]⟩,
     ⟨"opt_text", "Option<String>", [column [.flag "not_null", textItem "default" "x'y"]]⟩,
     ⟨"is_on_", "bool", [column [.assign "default" (.bool true)]]⟩,
     ⟨"small_int", "i8",
       [column [sizeItem "default" 7], json [textItem "rename" "renamedHere", .flag "default"]]⟩,
     ⟨"r#type", "char", [plainColumn]⟩,
     ⟨"__two_ways__x", "Option<f32>", [plainColumn]⟩,
     ⟨"day", "Option<NaiveDate>", [plainColumn]⟩,
     ⟨"stamp_at", "Option<DateTime<Utc>>", [column [textItem "column_type" "Date"]]⟩,
     ⟨"tags", "Vec<String>", [plainColumn]⟩,
     ⟨"hash_set", "Option<HashSet<i32>>", [plainColumn]⟩,
     ⟨"tree_set", "Option<BTreeSet<i32>>", [plainColumn]⟩,
     ⟨"any", "Option<Value>", [plainColumn]⟩,
     ⟨"hash_map", "Option<HashMap<String, i32>>", [plainColumn]⟩,
     ⟨"tree_map", "Option<BTreeMap<String, i32>>", [plainColumn]⟩,
     ⟨"point", "Option<GeometryPoint>", [plainColumn]⟩,
     ⟨"boxed", "Option<Box<i32>>", [plainColumn]⟩,
     ⟨"ledger_ref", "Option<i64>",
       [column [textItem "column_type" "text", sizeItem "delete_value" 1],
        refersTo "Ledger" "id" [textItem "action" "SET NULL"]]⟩,
     ⟨"user_ref", "Option<i64>", [refersTo "User" "id" [textItem "action" "no_action"]]⟩,
     ⟨"plain_field", "Option<u16>", []⟩]

/-- All sample declarations. -/
def declarations : List Declaration :=
  [user, post, auditLog, category, archive, place, grid, ledger, summary, kinds]

end Persistence.Sample
