import GameCatalog.Uid
import GameCatalog.Text.Quoted

/-!
# What an assignment of uids reports

Two things can go wrong with a record: its uid contradicts the authority, or the uid that the
authority has for it is held by another record. Both are reported, neither is repaired.
-/

namespace GameCatalog

/-- A record that keeps a uid other than the one the authority has for its name. -/
structure Conflict where
  name : String
  document : String
  existing : Uid
  authoritative : Uid
deriving DecidableEq

def Conflict.text (conflict : Conflict) : String :=
  s!"uid mismatch for {Text.quoted conflict.name} in {conflict.document}: " ++
    s!"file has {conflict.existing}, authority has {conflict.authoritative}"

/-- A record left without the uid of its name, which another record of the document holds. -/
structure RefusedClaim where
  name : String
  document : String
  uid : Uid
deriving DecidableEq

def RefusedClaim.text (claim : RefusedClaim) : String :=
  s!"uid {claim.uid} for {Text.quoted claim.name} in {claim.document} " ++
    "is already used by another record"

/-- The outcome for one document. `unresolved` are the names left without a uid, `skipped` counts
the records without a usable name; only a document that `changed` needs to be written. -/
structure AssignReport where
  changed : Bool
  assigned : Nat
  unresolved : List String
  skipped : Nat
  conflicts : List Conflict
  refused : List RefusedClaim
deriving DecidableEq

def AssignReport.faultCount (report : AssignReport) : Nat :=
  report.conflicts.length + report.refused.length

end GameCatalog
