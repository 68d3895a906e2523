import ChatToken.Table

/-! # Guards

A guard does its work exactly once, when it is let go. A rack holds guards in the order in which
they were created, each with the name that it adds to the list of finished work.
-/
namespace ChatToken

structure GuardRack where
  held : Table Nat String
  finished : List String := []
  deriving DecidableEq, Repr

namespace GuardRack

def ofNames (names : List String) : GuardRack where
  held :=
    { entries := (List.range names.length).zip names
      nodup := by rw [List.map_fst_zip (by simp)]; exact List.nodup_range }

def letGo (r : GuardRack) (i : Nat) : GuardRack :=
  match r.held.get? i with
  | none => r
  | some name => { held := r.held.erase i, finished := r.finished ++ [name] }

def letAllGo (r : GuardRack) : GuardRack :=
  { held := {}, finished := r.finished ++ r.held.values }

/-- Lets the guards at some positions go, writes a divider, and lets the remaining ones go. -/
def run (names : List String) (first : List Nat) : List String :=
  let r := first.foldl letGo (ofNames names)
  { r with finished := r.finished ++ ["--"] }.letAllGo.finished

end GuardRack

end ChatToken
