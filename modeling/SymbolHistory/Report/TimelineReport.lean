import SymbolHistory.Evolution.Timeline
import SymbolHistory.Report.ChainRecord

namespace SymbolHistory.Report

def programVersion : String := "0.1.0"

structure TimelineReport where
  path : String
  language : Language
  snapshotCount : Nat
  newestFirst : Bool
  chains : List ChainRecord
  deriving DecidableEq, Repr

def timelineReport (t : Timeline) (newestFirst : Bool) (shades : Nat) : TimelineReport where
  path := t.path
  language := t.language
  snapshotCount := t.snapshotCount
  newestFirst := newestFirst
  chains := t.chains.map fun c => chainRecord c newestFirst shades

def TimelineReport.toJson (r : TimelineReport) : Json :=
  .obj [("version", .str programVersion), ("path", .str r.path), ("language", .str r.language.id),
    ("snapshots", .ofNat r.snapshotCount), ("newestFirst", .bool r.newestFirst),
    ("symbols", .arr (r.chains.map ChainRecord.toJson))]

end SymbolHistory.Report
