import Persistence.Json.Printer

/-!
# Failures

A failure is a cause: a condition that the library finds itself, or a failure that the database
driver reports in its own words.  `DbError.message` has the wording.
-/

namespace Persistence

/-- What makes an argument unacceptable. -/
inductive Invalid
  /-- Conditions were asked for over the fields of something that has no fields. -/
  | fieldsExpected (got : Json)
  /-- Something other than an object was to be written as an entity. -/
  | entityExpected (got : Json)
  /-- An operation by primary key on a table without one. -/
  | noPrimaryKey (table : String)
  /-- A column type that does not exist; its name in lower case. -/
  | columnType (name : String)
  /-- A foreign key action that does not exist; its name in upper case with spaces. -/
  | foreignAction (name : String)
  /-- Reported by the driver. -/
  | reported (text : String)

/-- The wording of a cause. -/
def Invalid.message : Invalid → String
  | fieldsExpected got => "expected an object of fields, got " ++ got.text
  | entityExpected got => "expected an entity object, got " ++ got.text
  | noPrimaryKey table => "no primaryKey on table " ++ table
  | columnType name => "unknown column type: " ++ name
  | foreignAction name => "unknown foreign key action: " ++ name
  | reported text => text

/-- What is looked up by an id. -/
inductive Unregistered
  | select (id : String)
  | delete (id : String)
  | reported (text : String)

/-- The wording of a look-up without result. -/
def Unregistered.message : Unregistered → String
  | select id => "select " ++ id
  | delete id => "delete " ++ id
  | reported text => text

/-- A failure of the library or of the database behind it. -/
inductive DbError
  /-- No connection can be had. -/
  | connection (text : String)
  /-- A connect on a connected instance. -/
  | alreadyConnected
  /-- The database refused something. -/
  | database (text : String)
  /-- The database knows no create statement for a table. -/
  | noCreateStatement (table : String)
  | validation (cause : Invalid)
  /-- A value has no form in the database. -/
  | serialization
  /-- A value of the database does not fit the entity. -/
  | deserialization
  | notConnected
  | poolClosed
  /-- A transaction context was used after its end. -/
  | contextClosed
  | notRegistered (what : Unregistered)
  /-- A cascade of deletes went deeper than its caller allows. -/
  | cascadeTooDeep

/-- The wording of a failure, for the failures that have a fixed one. -/
def DbError.message : DbError → String
  | connection text => "Connection error: " ++ text
  | alreadyConnected => "Connection error: already connected"
  | database text => "Database error: " ++ text
  | noCreateStatement table => "Database error: no create statement for table " ++ table
  | validation cause => "Validation error: " ++ cause.message
  | serialization => "Serialization error"
  | deserialization => "Deserialization error"
  | notConnected => "Not connected: call connect() first"
  | poolClosed => "Pool closed"
  | contextClosed => "Transaction context already ended"
  | notRegistered what => "Not registered: " ++ what.message
  | cascadeTooDeep => "Cascade too deep"

end Persistence
