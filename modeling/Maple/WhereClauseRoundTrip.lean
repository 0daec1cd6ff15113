import Maple.WhereClauseText

/-! Where-clause texts written from clauses and groups, and what parsing them gives back. -/

namespace Maple.WhereClause
open SafeFetch (isTrimmed)

inductive Entry
  | single (clause : WrittenClause)
  | group (first second : WrittenClause) (more : List WrittenClause)

def Entry.clauses : Entry → List WrittenClause
  | .single clause => [clause]
  | .group first second more => first :: second :: more

def groupText (members : List WrittenClause) : Text :=
  " OR ".toList.intercalate (members.map WrittenClause.text)

def Entry.text : Entry → Text
  | .single clause => clause.text
  | .group first second more => '(' :: (groupText (first :: second :: more) ++ [')'])

def ParseWhereClauseResult.add (result : ParseWhereClauseResult) : Entry → ParseWhereClauseResult
  | .single clause => result.clause clause.parsed
  | .group first second more =>
    let members := (first :: second :: more).map WrittenClause.parsed
    { result with groups := result.groups ++ [members] }

/-- The clauses and groups that are written, in order. -/
def written (entries : List Entry) : ParseWhereClauseResult :=
  entries.foldl ParseWhereClauseResult.add {}

/-! ### Entries -/

/-- The value can be spelled, or the clause is refusable. -/
def Sound (clause : WrittenClause) : Prop := clause.unspellable = true → clause.refusable = true

lemma Sound.quiet {clause : WrittenClause} (h : Sound clause) :
    quietFrom none (quoteWhereValue clause.value) = true := by
  cases hspelled : clause.unspellable with
  | false => exact quietFrom_quoteWhereValue hspelled
  | true =>
    have hrefusable := h hspelled
    rw [WrittenClause.refusable, Bool.and_eq_true] at hrefusable
    exact hrefusable.1

end Maple.WhereClause
