import Persistence.Query.Clause
import Persistence.Sql.Template

/-!
# Arguments of statements

What can be put in place of a placeholder: a literal, a piece of SQL, or a query that is written
out as a clause.
-/

namespace Persistence

/-- An argument of a statement. -/
inductive Param
  | literal (v : Value)
  | raw (sql : String)
  | query (q : Query)

/-- What stands for an argument in a statement; a query is written without a mapping. -/
def Param.text : Param → String
  | literal v => v.literal
  | raw sql => sql
  | query q => q.clauseText Mapping.empty false

/-- The statement that a template and its arguments make. -/
def Sql.format (template : String) (params : List Param) : String :=
  Sql.fill template (params.map Param.text)

end Persistence
