import GameCatalog.Catalog.UidTable
import GameCatalog.Event

/-!
# Carrying a field forward

A regenerated catalog gets the curated values of one field back from an older one. Records are
matched by uid; where the old record holds a value other than null, the new record takes it. All
uids of both catalogs are checked before anything changes.
-/

namespace GameCatalog

open Json

def defaultCarryField : String := "gameVariations"

structure CarryReport where
  carried : Nat
  unmatched : Nat
deriving DecidableEq

inductive Transfer where
  | unkeyed
  | unmatched
  | nothing
  | carried (uid : Uid) (value : Value)

namespace Transfer

def apply (field : String) (record : Record) : Transfer → Record
  | .carried _ value => record.set field value
  | _ => record

def isUnmatched : Transfer → Bool
  | .unmatched => true
  | _ => false

def isCarried : Transfer → Bool
  | .carried _ _ => true
  | _ => false

def event? (field : String) : Transfer → Option Event
  | .carried uid _ => some (.carried uid field)
  | _ => none

def decide (old : UidTable) (field : String) (record : Record) : Except RecordFault Transfer :=
  match record.uid with
  | .error fault => .error fault
  | .ok (.resolved uid) =>
      match old.find? uid with
      | none => .ok .unmatched
      | some source =>
          match source.get? field with
          | some value => .ok (if value.isNull then .nothing else .carried uid value)
          | none => .ok .nothing
  | .ok _ => .ok .unkeyed

def decideAll (old : UidTable) (field : String) :
    List Record → Except RecordFault (List Transfer)
  | [] => .ok []
  | record :: rest => do
      let first ← decide old field record
      let others ← decideAll old field rest
      .ok (first :: others)

end Transfer

def CarryReport.ofTransfers (transfers : List Transfer) : CarryReport :=
  ⟨transfers.countP Transfer.isCarried, transfers.countP Transfer.isUnmatched⟩

namespace Catalog

def carry (old new : Catalog) (field : String) : Edit CarryReport :=
  match old.uidTable .resolved with
  | .error fault => .refuse new fault
  | .ok table =>
      match new.uidTable .resolved with
      | .error fault => .refuse new fault
      | .ok _ =>
          match Transfer.decideAll table field new.games with
          | .error fault => .refuse new fault
          | .ok transfers =>
              { catalog := { new with
                  games := new.games.zipWith (fun record t => t.apply field record) transfers }
                answer := .ok (.ofTransfers transfers)
                events := transfers.filterMap (Transfer.event? field) }

end Catalog

end GameCatalog
