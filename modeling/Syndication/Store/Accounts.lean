import Syndication.Account.Basic
import Syndication.Fault.Service

namespace Syndication

/-- Accounts held in memory. -/
structure AccountStore where
  rows : List Account := []
  /-- How many accounts were saved. -/
  saves : Nat := 0

namespace AccountStore

def find? (store : AccountStore) (id : AccountId) : Option Account := store.rows.find? (·.id == id)

def has (store : AccountStore) (id : AccountId) : Bool := (store.find? id).isSome

/-- Puts an account in the place of the row that has its identifier. -/
def replace (account : Account) (rows : List Account) : List Account :=
  rows.map fun row => if row.id = account.id then account else row

/-- Inserts an account, or replaces the one with its identifier. -/
def put (store : AccountStore) (account : Account) : AccountStore :=
  if store.has account.id then { store with rows := replace account store.rows }
  else { store with rows := store.rows ++ [account] }

def missing (id : AccountId) : ServiceFault :=
  ⟨.accountNotFound, s!"Connected account {id.text} not found", []⟩

def save (store : AccountStore) (account : Account) : Except ServiceFault AccountStore :=
  if store.has account.id then .ok ⟨replace account store.rows, store.saves + 1⟩
  else .error (missing account.id)

end AccountStore

end Syndication
