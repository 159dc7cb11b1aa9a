import GameCatalog.Registry.Basic

/-!
# Assigning uids

A registry gives uids to the records of a document by name. Every uid of the document is checked
before anything changes. Then each record in turn gets a verdict, which depends on the uids that
are held by then: resolved uids stay, a uid is given to one record only, and a record without a
match is marked as unresolved. The new records, the report and the log are all read off the list of
verdicts.
-/

namespace GameCatalog

/-- What is decided for one record. `marked` tells whether the record had no uid field yet, so that
the mark of an unresolved record is new. -/
inductive Verdict where
  | unnamed
  | kept
  | contradicted (name : String) (existing authoritative : Uid)
  | granted (name : String) (uid : Uid)
  | refused (name : String) (uid : Uid) (marked : Bool)
  | unknown (name : String) (marked : Bool)
deriving DecidableEq

namespace Verdict

def apply (record : Record) : Verdict → Record
  | .granted _ uid => record.setUid (some uid)
  | .refused _ _ true | .unknown _ true => record.setUid none
  | _ => record

def changes : Verdict → Bool
  | .granted _ _ | .refused _ _ true | .unknown _ true => true
  | _ => false

def granted? : Verdict → Option Uid
  | .granted _ uid => some uid
  | _ => none

def unresolved? : Verdict → Option String
  | .refused name _ _ | .unknown name _ => some name
  | _ => none

def conflict? (document : String) : Verdict → Option Conflict
  | .contradicted name existing authoritative => some ⟨name, document, existing, authoritative⟩
  | _ => none

def refused? (document : String) : Verdict → Option RefusedClaim
  | .refused name uid _ => some ⟨name, document, uid⟩
  | _ => none

def event? (document : String) : Verdict → Option Event
  | .contradicted name existing authoritative =>
      some (.conflict ⟨name, document, existing, authoritative⟩)
  | .refused name uid _ => some (.refused ⟨name, document, uid⟩)
  | .granted name uid => some (.assigned name uid)
  | _ => none

end Verdict

def AssignReport.ofVerdicts (document : String) (verdicts : List Verdict) : AssignReport where
  changed := verdicts.any Verdict.changes
  assigned := (verdicts.filterMap Verdict.granted?).length
  unresolved := verdicts.filterMap Verdict.unresolved?
  skipped := verdicts.count .unnamed
  conflicts := verdicts.filterMap (Verdict.conflict? document)
  refused := verdicts.filterMap (Verdict.refused? document)

namespace Registry

def verdict (registry : Registry) (held : List Uid) (record : Record) :
    Except RecordFault Verdict :=
  match record.usableName? with
  | none => .ok .unnamed
  | some name =>
      match record.uid with
      | .error fault => .error fault
      | .ok (.resolved existing) =>
          match registry.lookup name with
          | some authoritative =>
              if authoritative = existing then .ok .kept
              else .ok (.contradicted name existing authoritative)
          | none => .ok .kept
      | .ok state =>
          match registry.lookup name with
          | some uid =>
              if uid ∈ held then .ok (.refused name uid (state = .absent))
              else .ok (.granted name uid)
          | none => .ok (.unknown name (state = .absent))

/-- Judges and rewrites records in order. A fault would leave the records from the faulty one on as
they are. -/
def judge (registry : Registry) (held : List Uid) :
    List Record → List Record × Except RecordFault (List Verdict)
  | [] => ([], .ok [])
  | record :: rest =>
      match registry.verdict held record with
      | .error fault => (record :: rest, .error fault)
      | .ok verdict =>
          let (records, answer) := registry.judge (verdict.granted?.toList ++ held) rest
          (verdict.apply record :: records, answer.map (verdict :: ·))

def heldUids : List Record → Except RecordFault (List Uid)
  | [] => .ok []
  | record :: rest => do
      let state ← record.uid
      let others ← heldUids rest
      .ok (state.resolved?.toList ++ others)

def assign (registry : Registry) (document : String) (catalog : Catalog) : Edit AssignReport :=
  match heldUids catalog.games with
  | .error fault => .refuse catalog fault
  | .ok held =>
      let (games, answer) := registry.judge held catalog.games
      { catalog := { catalog with games }
        answer := answer.map (AssignReport.ofVerdicts document)
        events := match answer with
          | .ok verdicts => verdicts.filterMap (Verdict.event? document)
          | .error _ => [] }

end Registry

end GameCatalog
