import MiniDht.Db.Statements

/-!
# What a remote string can do to a text

Keys and titles are written between quotes as they came from the network. A call's texts
say what the call means exactly when none of its strings holds a quote or a NUL.
-/

namespace MiniDht

open Lib

/-- A call of the record store that takes a key. -/
inductive DbCall where
  | insert (key title : String) (time ttl : Int) (data : List UInt8)
  | update (key title : String) (time ttl : Int)
  | remove (key title : String)
  | count (key : String)
  | findTitle (key title : String)
  | find (key : String)
  | findNoBlob (key : String)

namespace DbCall

/-- The statements a call hands to the engine. -/
def statements : DbCall → List DbStmt
  | insert key title time ttl data =>
    [insertHeader key title, insertTime key title time ttl, insertItem key title data]
  | update key title time ttl => [updateTime key title time ttl]
  | remove key title => [deleteHeader key title]
  | count key => [countKey key]
  | findTitle key title => [selectTitle key title]
  | find key => [selectKey key]
  | findNoBlob key => [selectNoBlob key]

/-- The strings of a call. -/
def strings : DbCall → List String
  | insert key title _ _ _ => [key, title]
  | update key title _ _ => [key, title]
  | remove key title => [key, title]
  | count key => [key]
  | findTitle key title => [key, title]
  | find key => [key]
  | findNoBlob key => [key]

/-- **The texts of a call.** Each is one statement of its fixed shape, with the call's
strings and numbers as its literals, if and only if the strings are clean. -/
theorem reads_iff_clean (call : DbCall) :
    (∀ st ∈ call.statements, st.Reads) ↔ ∀ value ∈ call.strings, Clean value := by
  cases call with
  | insert key title time ttl data =>
    simp [statements, strings, reads_insertHeader, reads_insertTime, reads_insertItem]
  | update key title time ttl => simp [statements, strings, reads_updateTime]
  | remove key title => simp [statements, strings, reads_deleteHeader]
  | count key => simp [statements, strings, reads_countKey]
  | findTitle key title => simp [statements, strings, reads_selectTitle]
  | find key => simp [statements, strings, reads_selectKey]
  | findNoBlob key => simp [statements, strings, reads_selectNoBlob]

/-- The removal of a key and title, or of everything under a second key. -/
def deleteEither : Template where
  head := "DELETE FROM data_header WHERE key = "
  tail := [" AND title = ", " OR key = ", ""]

/-- A title that ends its literal early turns the removal of one record into the removal
of everything under a key. -/
theorem remove_injected :
    let call := remove "k" "' OR key = 'k"
    ¬ (∀ st ∈ call.statements, st.Reads) ∧
      ∀ st ∈ call.statements,
        lex (cstr (st.template.text st.values)) = some (deleteEither.tokens ["k", "", "k"]) := by
  constructor
  · simp only [statements, List.forall_mem_singleton, reads_deleteHeader]
    decide
  · simp only [statements, List.forall_mem_singleton]
    decide +kernel

end DbCall

end MiniDht
