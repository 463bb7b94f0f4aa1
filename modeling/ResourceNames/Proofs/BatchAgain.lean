import ResourceNames.Proofs.EntryOrder
import ResourceNames.Proofs.ListsOnDisk

namespace ResourceNames

namespace FileSystem

/-- Files that differ at stale places at most. Directories, special files and the place at which the
program works are the same everywhere. -/
structure AlikeBeside (stale : Location → Prop) (fs other : FileSystem) : Prop where
  skeleton : other.skeleton = fs.skeleton
  kept : ∀ l, ¬ stale l → other.catalog.find? l = fs.catalog.find? l

variable {stale older : Location → Prop} {fs between other : FileSystem} {path : Path}

theorem AlikeBeside.refl (stale : Location → Prop) (fs : FileSystem) : AlikeBeside stale fs fs :=
  ⟨rfl, fun _ _ => rfl⟩

theorem AlikeBeside.mono (alike : AlikeBeside stale fs other) (more : ∀ l, stale l → older l) :
    AlikeBeside older fs other :=
  ⟨alike.skeleton, fun l current => alike.kept l fun old => current (more l old)⟩

theorem AlikeBeside.trans (first : AlikeBeside stale fs between)
    (second : AlikeBeside stale between other) : AlikeBeside stale fs other :=
  ⟨second.skeleton.trans first.skeleton,
    fun l current => (second.kept l current).trans (first.kept l current)⟩

theorem AlikeBeside.eq (alike : AlikeBeside stale fs other) (current : ∀ l, ¬ stale l) :
    other = fs := by
  have found : other.catalog = fs.catalog := Catalog.ext_find? fun l => alike.kept l (current l)
  have working : other.current = fs.current := congrArg Prod.fst alike.skeleton
  obtain ⟨catalog, place⟩ := other
  cases found
  cases working
  rfl

/-- Where a path leads to a stale place, nothing is there yet. -/
def Fresh (stale : Location → Prop) (fs : FileSystem) (path : Path) : Prop :=
  ∀ l, fs.place? path = some l → stale l → fs.node? l = none

theorem AlikeBeside.read {data : List UInt8} (alike : AlikeBeside stale fs other)
    (fresh : Fresh stale fs path) (read : fs.read path = .ok data) :
    other.read path = .ok data := by
  refine read_mono (directoriesIn_of_skeleton alike.skeleton) ?_ read
  intro l located file
  -- Something is there to be read, so the place is not stale.
  have current : ¬ stale l := by
    intro old
    obtain ⟨place, node, located', holds, -⟩ := read_eq_ok_iff.mp read
    cases located.symm.trans located'
    cases holds.symm.trans (fresh l (place?_of_locate file located) old)
  simp only [node?, alike.kept l current]

end FileSystem

namespace Batch

open FileSystem

variable {rule : ScanRule} {entry : Entry} {entries : List Entry} {stale : Location → Prop}
  {fs other after : FileSystem} {report : EntryReport} {reports : List EntryReport}

/-- An entry changes the file at its target at most. -/
theorem alike_of_processEntry (processed : processEntry rule entry fs = (.ok report, after)) :
    AlikeBeside (fun l => target? fs entry = some l) fs after where
  skeleton := (processEntry_frame processed).1
  kept l elsewhere := by rw [processEntry_find? processed l, if_neg elsewhere]

/-- An entry whose input is fresh comes to the same on files that are alike. Its target, if that was
stale, is stale no more. -/
theorem processEntry_alike (alike : AlikeBeside stale fs other)
    (fresh : Fresh stale fs entry.input)
    (processed : processEntry rule entry fs = (.ok report, after)) :
    ∃ after', processEntry rule entry other = (.ok report, after') ∧
      AlikeBeside (fun l => stale l ∧ target? fs entry ≠ some l) after after' := by
  obtain ⟨data, read, rfl, written⟩ := processEntry_ok_iff.mp processed
  have again := alike.read fresh read
  have written' : (other.write entry.output (rule.listing data)).1 = .ok () :=
    write_of_skeleton alike.skeleton (congrArg Prod.fst written)
  have processed' : processEntry rule entry other = (.ok (reportOn rule entry data),
      (other.write entry.output (rule.listing data)).2) :=
    processEntry_ok_iff.mpr ⟨data, again, rfl, Prod.ext written' rfl⟩
  refine ⟨_, processed', ?_, fun l beside => ?_⟩
  · rw [(processEntry_frame processed').1, alike.skeleton, (processEntry_frame processed).1]
  · rw [processEntry_find? processed' l, processEntry_find? processed l,
      target?_of_skeleton alike.skeleton, contentOf_of_read again, contentOf_of_read read]
    by_cases here : target? fs entry = some l
    · rw [if_pos here, if_pos here]
    · rw [if_neg here, if_neg here]
      exact alike.kept l fun old => beside ⟨old, here⟩

/-- A path stays fresh, for only the target of the entry is filled, which is then not stale. -/
theorem fresh_of_processEntry {path : Path} (fresh : Fresh stale fs path)
    (processed : processEntry rule entry fs = (.ok report, after)) :
    Fresh (fun l => stale l ∧ target? fs entry ≠ some l) after path := by
  rintro l placed ⟨old, elsewhere⟩
  rw [place?_of_skeleton (processEntry_frame processed).1] at placed
  have empty := fresh l placed old
  rwa [node?, (alike_of_processEntry processed).kept l elsewhere, ← node?]

/-- Several entries change the files at their targets at most. -/
theorem alike_of_processAll (well : processAll rule entries fs = (.ok reports, after)) :
    AlikeBeside (fun l => ∃ entry ∈ entries, target? fs entry = some l) fs after := by
  induction entries generalizing fs reports with
  | nil =>
    cases well
    exact .refl _ _
  | cons entry entries ih =>
    obtain ⟨report, others, between, rfl, processed, rest⟩ := processAll_cons_eq_ok well
    have shape := (processEntry_frame processed).1
    have first : AlikeBeside (fun l => ∃ one ∈ entry :: entries, target? fs one = some l)
        fs between :=
      (alike_of_processEntry processed).mono fun l target => ⟨entry, List.mem_cons_self, target⟩
    refine first.trans ((ih rest).mono ?_)
    rintro l ⟨one, member, target⟩
    rw [target?_of_skeleton shape] at target
    exact ⟨one, List.mem_cons_of_mem _ member, target⟩

/-- Entries whose inputs are fresh come to the same on files that are alike. Then no place is stale
to which one of them has written. -/
theorem processAll_alike (alike : AlikeBeside stale fs other)
    (fresh : ∀ entry ∈ entries, Fresh stale fs entry.input)
    (well : processAll rule entries fs = (.ok reports, after)) :
    ∃ after', processAll rule entries other = (.ok reports, after') ∧
      AlikeBeside (fun l => stale l ∧ ∀ entry ∈ entries, target? fs entry ≠ some l)
        after after' := by
  induction entries generalizing stale fs other reports with
  | nil =>
    cases well
    exact ⟨other, rfl, alike.mono fun l old => ⟨old, fun _ member => by cases member⟩⟩
  | cons entry entries ih =>
    obtain ⟨report, others, between, rfl, processed, rest⟩ := processAll_cons_eq_ok well
    obtain ⟨freshFirst, freshOthers⟩ := List.forall_mem_cons.mp fresh
    obtain ⟨between', processed', alike'⟩ := processEntry_alike alike freshFirst processed
    have shape := (processEntry_frame processed).1
    obtain ⟨after', rest', alikeAfter⟩ := ih alike'
      (fun one member => fresh_of_processEntry (freshOthers one member) processed) rest
    refine ⟨after', processAll_cons_of_ok processed' rest', alikeAfter.mono ?_⟩
    rintro l ⟨⟨old, notFirst⟩, notOthers⟩
    refine ⟨old, List.forall_mem_cons.mpr ⟨notFirst, fun one member => ?_⟩⟩
    rw [← target?_of_skeleton shape]
    exact notOthers one member

/-- Entries that are done, and none of which overwrites an input, can be done again. It comes to the
same, and nothing changes any more. -/
theorem processAll_again (well : processAll rule entries fs = (.ok reports, after))
    (apart : ∀ one ∈ entries, ∀ other ∈ entries, ∀ l,
      fs.place? one.output = some l → fs.place? other.input = some l → fs.node? l = none) :
    processAll rule entries after = (.ok reports, after) := by
  have fresh : ∀ other ∈ entries,
      Fresh (fun l => ∃ one ∈ entries, target? fs one = some l) fs other.input := by
    rintro other member l placed ⟨one, member', target⟩
    exact apart one member' other member l (place?_of_target target) placed
  obtain ⟨after', again, alike⟩ := processAll_alike (alike_of_processAll well) fresh well
  have same : after' = after := by
    refine alike.eq ?_
    rintro l ⟨⟨entry, member, target⟩, untouched⟩
    exact untouched entry member target
  rwa [same] at again

end Batch

namespace Session

open Batch

variable {settings : Settings} {running : Bool} {entries : List Entry} {files after : FileSystem}
  {report : Report} {records : List Record}

/-- To run a batch again does no harm. Take a batch of which no list takes the place of a file that
is there and is an input; several lists may go to one place, and the paths are looked at when the
directory for the lists is there. If it ends well then it does so again on the files that it has
left, leaves them as they are, and reports and shows the same. -/
theorem ripAll_again (ripped : ripAll settings running files = (.ok report, records, after))
    (described : settings.entries = .ok entries)
    (apart : let room := (makeRoom settings files).2
      ∀ one ∈ entries, ∀ other ∈ entries, ∀ l, room.place? one.output = some l →
        room.place? other.input = some l → room.node? l = none) :
    ripAll settings running after = (.ok report, records, after) := by
  cases running with
  | false => cases ripped
  | true =>
    cases comes_iff.mpr ripped with
    | @done entries' reports room _ described' made well =>
      cases described.symm.trans described'
      rw [made] at apart
      have within := FileSystem.directoriesIn_of_skeleton (processAll_frame well).1
      exact (Comes.done described (makeRoom_again made within)
        (processAll_again well apart)).ripAll_eq

/-- Two lists in one file are written once more, the second over the first. -/
theorem ripAll_again_gathered : ∃ report records after,
    ripAll gathered true crowded = (.ok report, records, after) ∧
    ripAll gathered true after = (.ok report, records, after) ∧
    after.read ⟨"lists/a.t"⟩ = .ok twoListed := by
  obtain ⟨records, ripped⟩ := ripAll_gathered
  have described : gathered.entries =
      .ok [⟨⟨"x/a"⟩, ⟨"lists/a.t"⟩⟩, ⟨⟨"y/a"⟩, ⟨"lists/a.t"⟩⟩] := by decide
  have different : ∀ one ∈ [(⟨⟨"x/a"⟩, ⟨"lists/a.t"⟩⟩ : Entry), ⟨⟨"y/a"⟩, ⟨"lists/a.t"⟩⟩],
      ∀ other ∈ [(⟨⟨"x/a"⟩, ⟨"lists/a.t"⟩⟩ : Entry), ⟨⟨"y/a"⟩, ⟨"lists/a.t"⟩⟩],
      (makeRoom gathered crowded).2.place? one.output ≠
        (makeRoom gathered crowded).2.place? other.input := by
    rw [makeRoom_lists rfl]
    decide
  refine ⟨_, records, _, ripped, ripAll_again ripped described ?_, ?_⟩
  · intro room one member other member' l placed placed'
    exact absurd (placed.trans placed'.symm) (different one member other member')
  · rfl

end Session
end ResourceNames
