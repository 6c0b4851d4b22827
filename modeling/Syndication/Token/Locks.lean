import Syndication.Id

namespace Syndication

/-- A lease on the lock with this number. -/
structure Lease where
  lock : Nat
deriving DecidableEq, Repr

/-- Locks are numbered in the order in which they were made. An account has one only while somebody
needs it. -/
structure LockTable where
  /-- The lock of each account that has one. -/
  locks : List (AccountId × Nat) := []
  /-- The leases given out and not given back. -/
  leases : List Lease := []
  /-- The locks that somebody is inside of. -/
  entered : List Nat := []
  /-- How many locks were made so far. -/
  made : Nat := 0
deriving Repr

namespace LockTable

def lockOf? (table : LockTable) (account : AccountId) : Option Nat := table.locks.lookup account

/-- A lease on the lock of an account. -/
def lease (table : LockTable) (account : AccountId) : Lease × LockTable :=
  match table.lockOf? account with
  | some lock => (⟨lock⟩, { table with leases := ⟨lock⟩ :: table.leases })
  | none =>
    (⟨table.made⟩,
      { table with
        locks := (account, table.made) :: table.locks
        leases := ⟨table.made⟩ :: table.leases
        made := table.made + 1 })

/-- Whether the lock can be entered now. -/
def isFree (table : LockTable) (lease : Lease) : Bool := !table.entered.contains lease.lock

def enter (table : LockTable) (lease : Lease) : LockTable :=
  { table with entered := lease.lock :: table.entered }

def leave (table : LockTable) (lease : Lease) : LockTable :=
  { table with entered := table.entered.erase lease.lock }

def giveBack (table : LockTable) (lease : Lease) : LockTable :=
  { table with leases := table.leases.erase lease }

/-- Forgets the lock of an account when no lease on it is left. -/
def sweep (table : LockTable) (account : AccountId) : LockTable :=
  match table.lockOf? account with
  | some lock =>
    if table.leases.contains ⟨lock⟩ then table
    else { table with locks := table.locks.filter (·.1 != account) }
  | none => table

end LockTable

end Syndication
