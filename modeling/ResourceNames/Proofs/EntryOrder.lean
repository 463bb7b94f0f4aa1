import Mathlib.Data.List.Perm.Basic
import ResourceNames.Proofs.Cancellation
import ResourceNames.Proofs.EntriesInTurn

namespace ResourceNames

namespace Catalog

variable {c d : Catalog} {l : Location} {node : Node} {entries : List (Location × Node)}

theorem seek_eq_some_iff (ordered : entries.Pairwise fun a b => a.1 < b.1) :
    seek l entries = some node ↔ (l, node) ∈ entries := by
  induction entries with
  | nil => simp [seek]
  | cons entry rest ih =>
    obtain ⟨place, first⟩ := entry
    obtain ⟨above, tail⟩ := List.pairwise_cons.mp ordered
    rw [seek, List.mem_cons]
    by_cases here : place = l
    · subst here
      have unique : (place, node) ∉ rest := fun again =>
        List.lt_irrefl place (above (place, node) again)
      simp [unique, eq_comm]
    · simp [here, ih tail, Ne.symm here]

/-- A catalog is what is found in it. -/
theorem ext_find? (same : ∀ l, c.find? l = d.find? l) : c = d := by
  have nodup (entries : List (Location × Node)) (ordered : entries.Pairwise fun a b => a.1 < b.1) :
      entries.Nodup := by
    refine ordered.imp fun {a b} before equal => ?_
    subst equal
    exact List.lt_irrefl a.1 before
  have members : ∀ entry, entry ∈ c.entries ↔ entry ∈ d.entries := by
    rintro ⟨l, node⟩
    rw [← seek_eq_some_iff c.ordered, ← seek_eq_some_iff d.ordered]
    exact iff_of_eq (congrArg (· = some node) (same l))
  have permuted : c.entries.Perm d.entries :=
    (List.perm_ext_iff_of_nodup (nodup _ c.ordered) (nodup _ d.ordered)).mpr members
  have equal : c.entries = d.entries := by
    refine permuted.eq_of_pairwise (fun a b _ _ before behind => ?_) c.ordered d.ordered
    exact absurd (List.lt_trans before behind) (List.lt_irrefl a.1)
  obtain ⟨entries, ordered⟩ := c
  subst equal
  rfl

end Catalog

namespace FileSystem

variable {fs other : FileSystem} {path : Path} {l : Location}

/-- What can be opened for writing depends on the directories and the special files alone. -/
theorem create_of_skeleton {after : FileSystem} (same : other.skeleton = fs.skeleton)
    (opened : fs.create path = .ok (l, after)) : ∃ after, other.create path = .ok (l, after) := by
  obtain ⟨slot, unslashed, short, -⟩ := create_eq_ok opened
  have found : other.slot path = .ok (some l) := by
    have within := directoriesIn_of_skeleton same
    obtain ⟨accepted, front, name, dir, named, walked, directory, proper⟩ :=
      slot_eq_ok_some_iff.mp slot
    refine slot_eq_ok_some_iff.mpr
      ⟨accepted, front, name, dir, named, ?_, within.directory dir directory, proper⟩
    rw [within.origin]
    exact walk_to_directory within directory walked
  have noDirectory : fs.node? l ≠ some .directory := by
    intro directory
    simp [create, slot, unslashed, short, directory, bind, Except.bind] at opened
  have noDirectory' : other.node? l ≠ some .directory := by
    intro directory
    have here := (isDirectoryAt_skeleton other l).mp (decide_eq_true directory)
    rw [same] at here
    exact noDirectory (node?_of_isDirectoryAt ((isDirectoryAt_skeleton fs l).mpr here))
  simp only [create, found, unslashed, short, bind, Except.bind, Bool.false_eq_true, if_false]
  split
  · rename_i directory
    exact absurd directory noDirectory'
  · exact ⟨_, rfl⟩
  · exact ⟨_, rfl⟩

theorem special_of_skeleton {onRead? onWrite? : Option Cause}
    (same : other.skeleton = fs.skeleton)
    (special : other.node? l = some (.special onRead? onWrite?)) :
    fs.node? l = some (.special onRead? onWrite?) := by
  have here : other.skeleton.2 l = some (.special onRead? onWrite?) := by simp [skeleton, special]
  rw [same, skeleton, Option.filter_eq_some_iff] at here
  exact here.1

/-- Whether a content can be written depends on the directories and the special files alone. -/
theorem write_of_skeleton {content : List UInt8} (same : other.skeleton = fs.skeleton)
    (written : (fs.write path content).1 = .ok ()) : (other.write path content).1 = .ok () := by
  cases opened : fs.create path with
  | error cause =>
    rw [write, opened] at written
    cases written
  | ok place =>
    obtain ⟨l, after⟩ := place
    obtain ⟨after', opened'⟩ := create_of_skeleton same opened
    obtain ⟨-, -, -, ⟨onRead?, onWrite?, special, rfl⟩ | ⟨free, rfl⟩⟩ := create_eq_ok opened'
    · have device := special_of_skeleton same special
      have unchanged : after = fs := by
        obtain ⟨-, -, -, ⟨_, _, -, unchanged⟩ | ⟨free, -⟩⟩ := create_eq_ok opened
        · exact unchanged
        · simp [skeleton, device] at free
      subst unchanged
      cases onWrite? with
      | none => simp only [write, opened', openFile, special]
      | some cause =>
        simp only [write, opened, openFile, device] at written
        simp only [write, opened', openFile, special]
        by_cases empty : content = []
        · rw [if_pos empty]
        · rw [if_neg empty] at written
          cases written
    · rw [write_of_create opened' (ne_nil_of_free free)]

end FileSystem

namespace Batch

variable {rule : ScanRule} {entry other : Entry} {entries permuted : List Entry}
  {fs between after : FileSystem} {report : EntryReport} {l : Location}

/-- The bytes that the input of an entry holds. -/
def contentOf (fs : FileSystem) (entry : Entry) : List UInt8 :=
  (fs.read entry.input).toOption.getD []

/-- The report on an entry that is taken up among these files. -/
def reportAt (rule : ScanRule) (fs : FileSystem) (entry : Entry) : EntryReport :=
  reportOn rule entry (contentOf fs entry)

/-- The place of the regular file, there or to be made, that takes the list of an entry. There is
none if the list goes to a device. -/
def target? (fs : FileSystem) (entry : Entry) : Option Location :=
  (fs.place? entry.output).filter fun l => (fs.skeleton.2 l).isNone

theorem contentOf_of_read {data : List UInt8} (read : fs.read entry.input = .ok data) :
    contentOf fs entry = data := by
  rw [contentOf, read]
  rfl

theorem target?_of_skeleton (same : between.skeleton = fs.skeleton) (entry : Entry) :
    target? between entry = target? fs entry := by
  rw [target?, FileSystem.place?_of_skeleton same, same, target?]

theorem place?_of_target (target : target? fs entry = some l) :
    fs.place? entry.output = some l :=
  (Option.filter_eq_some_iff.mp target).1

/-- Entries that are not in each other's way. Each can be done on the files as they are, no two
outputs lead to one place, and no output leads to an input. -/
structure Apart (rule : ScanRule) (entries : List Entry) (fs : FileSystem) : Prop where
  doable : ∀ entry ∈ entries, ∃ data, fs.read entry.input = .ok data ∧
    (fs.write entry.output (rule.listing data)).1 = .ok ()
  outputs : entries.Pairwise fun one other => fs.place? one.output ≠ fs.place? other.output
  inputs : ∀ one ∈ entries, ∀ other ∈ entries, fs.place? one.output ≠ fs.place? other.input

theorem Apart.first (apart : Apart rule (entry :: entries) fs) :
    ∃ between, processEntry rule entry fs = (.ok (reportAt rule fs entry), between) := by
  obtain ⟨data, read, written⟩ := apart.doable entry List.mem_cons_self
  refine ⟨(fs.write entry.output (rule.listing data)).2, processEntry_ok_iff.mpr ?_⟩
  exact ⟨data, read, by rw [reportAt, contentOf_of_read read], Prod.ext written rfl⟩

/-- An entry that is done leaves its list in its target, and all else as it was. -/
theorem processEntry_find? (processed : processEntry rule entry fs = (.ok report, after))
    (l : Location) : after.catalog.find? l =
      if target? fs entry = some l then some (.file (rule.listing (contentOf fs entry)))
      else fs.catalog.find? l := by
  obtain ⟨data, place, opened, read, -, created, ⟨onRead?, onWrite?, special, rfl⟩ |
    ⟨free, rfl⟩⟩ := processEntry_ok processed
  · have placed := FileSystem.place?_of_create created
    have device : target? after entry = none := by
      simp [target?, placed, Option.filter, FileSystem.skeleton, special]
    simp [device]
  · have placed := FileSystem.place?_of_create created
    have target : target? fs entry = some place := by simp [target?, placed, Option.filter, free]
    simp only [target, contentOf_of_read read, Option.some_inj]
    exact Catalog.find?_insert fs.catalog place l _

/-- An entry that is done leaves those apart from it as doable as they were. -/
theorem Apart.rest (apart : Apart rule (entry :: entries) fs)
    (processed : processEntry rule entry fs = (.ok report, between)) :
    Apart rule entries between ∧
      ∀ other ∈ entries, contentOf between other = contentOf fs other := by
  obtain ⟨shape, frame⟩ := processEntry_frame processed
  obtain ⟨_, _, _, _, rfl, _⟩ := processEntry_ok processed
  obtain ⟨elsewhere, outputs⟩ := List.pairwise_cons.mp apart.outputs
  have reads : ∀ other ∈ entries, ∀ data, fs.read other.input = .ok data →
      between.read other.input = .ok data := by
    intro other member data read
    refine FileSystem.read_mono (FileSystem.directoriesIn_of_skeleton shape) ?_ read
    intro input located file
    refine frame input fun placed => ?_
    have found := FileSystem.place?_of_locate file located
    exact apart.inputs entry List.mem_cons_self other (List.mem_cons_of_mem _ member)
      (placed.trans found.symm)
  have place := FileSystem.place?_of_skeleton shape
  refine ⟨⟨?_, ?_, ?_⟩, ?_⟩
  · intro other member
    obtain ⟨data, read, written⟩ := apart.doable other (List.mem_cons_of_mem _ member)
    exact ⟨data, reads other member data read, FileSystem.write_of_skeleton shape written⟩
  · simpa only [place] using outputs
  · intro one member other member'
    rw [place, place]
    exact apart.inputs one (List.mem_cons_of_mem _ member) other (List.mem_cons_of_mem _ member')
  · intro other member
    obtain ⟨data, read, -⟩ := apart.doable other (List.mem_cons_of_mem _ member)
    rw [contentOf_of_read (reads other member data read), contentOf_of_read read]

/-- What entries that are apart leave: their lists in their targets, and all else as it was. -/
structure Settled (rule : ScanRule) (entries : List Entry) (fs after : FileSystem) : Prop where
  current : after.current = fs.current
  listed : ∀ entry ∈ entries, ∀ l, target? fs entry = some l →
    after.catalog.find? l = some (.file (rule.listing (contentOf fs entry)))
  kept : ∀ l, (∀ entry ∈ entries, target? fs entry ≠ some l) →
    after.catalog.find? l = fs.catalog.find? l

/-- The entry in front writes to no target of those behind it. -/
theorem Settled.cons (apart : Apart rule (entry :: entries) fs)
    (processed : processEntry rule entry fs = (.ok report, between))
    (settled : Settled rule entries between after) : Settled rule (entry :: entries) fs after := by
  obtain ⟨shape, -⟩ := processEntry_frame processed
  have same := target?_of_skeleton shape
  have contents := (apart.rest processed).2
  refine ⟨settled.current.trans (congrArg Prod.fst shape), ?_, ?_⟩
  · intro one member l target
    obtain rfl | behind := List.mem_cons.mp member
    · have elsewhere : ∀ other ∈ entries, target? between other ≠ some l := by
        intro other member' again
        rw [same] at again
        have placed := (place?_of_target target).trans (place?_of_target again).symm
        exact (List.pairwise_cons.mp apart.outputs).1 other member' placed
      rw [settled.kept l elsewhere, processEntry_find? processed l, if_pos target]
    · rw [← contents one behind]
      exact settled.listed one behind l ((same one).trans target)
  · intro l untouched
    obtain ⟨notFirst, notOthers⟩ := List.forall_mem_cons.mp untouched
    have elsewhere : ∀ other ∈ entries, target? between other ≠ some l := by
      intro other member
      rw [same]
      exact notOthers other member
    rw [settled.kept l elsewhere, processEntry_find? processed l, if_neg notFirst]

/-- Entries that are apart are all done, and each is reported on as if it came first. -/
theorem Apart.processAll (apart : Apart rule entries fs) :
    ∃ after, Batch.processAll rule entries fs = (.ok (entries.map (reportAt rule fs)), after) ∧
      Settled rule entries fs after := by
  induction entries generalizing fs with
  | nil => exact ⟨fs, rfl, rfl, fun _ member => absurd member List.not_mem_nil, fun _ _ => rfl⟩
  | cons entry entries ih =>
    obtain ⟨between, processed⟩ := apart.first
    obtain ⟨others, contents⟩ := apart.rest processed
    obtain ⟨after, rest, settled⟩ := ih others
    have reports : entries.map (reportAt rule between) = entries.map (reportAt rule fs) := by
      refine List.map_congr_left fun other member => ?_
      rw [reportAt, contents other member, reportAt]
    rw [reports] at rest
    exact ⟨after, processAll_cons_of_ok processed rest, .cons apart processed settled⟩

/-- The files that are left are determined by which entries there are. -/
theorem Settled.unique {after' : FileSystem} (settled : Settled rule entries fs after)
    (settled' : Settled rule permuted fs after') (same : entries.Perm permuted) :
    after = after' := by
  have found : after.catalog = after'.catalog := by
    refine Catalog.ext_find? fun l => ?_
    by_cases taken : ∃ entry ∈ entries, target? fs entry = some l
    · obtain ⟨entry, member, target⟩ := taken
      rw [settled.listed entry member l target,
        settled'.listed entry (same.mem_iff.mp member) l target]
    · have untouched : ∀ entry ∈ entries, target? fs entry ≠ some l := by
        intro entry member target
        exact taken ⟨entry, member, target⟩
      have untouched' : ∀ entry ∈ permuted, target? fs entry ≠ some l := fun entry member =>
        untouched entry (same.mem_iff.mpr member)
      rw [settled.kept l untouched, settled'.kept l untouched']
  obtain ⟨catalog, current⟩ := after
  obtain ⟨catalog', current'⟩ := after'
  cases found
  cases settled.current.trans settled'.current.symm
  rfl

theorem Apart.perm (apart : Apart rule entries fs) (same : entries.Perm permuted) :
    Apart rule permuted fs where
  doable entry member := apart.doable entry (same.mem_iff.mpr member)
  outputs := same.pairwise apart.outputs fun different => different.symm
  inputs one member other member' :=
    apart.inputs one (same.mem_iff.mpr member) other (same.mem_iff.mpr member')

/-- The totals of reports do not depend on their order. -/
theorem reportOf_perm (rule : ScanRule) {reports reports' : List EntryReport}
    (same : reports.Perm reports') :
    (reportOf rule reports').bytesScanned = (reportOf rule reports).bytesScanned ∧
      (reportOf rule reports').matched = (reportOf rule reports).matched :=
  ⟨(same.map _).symm.sum_nat, (same.map _).symm.sum_nat⟩

/-- A batch that is let be runs as if nobody watched it. -/
theorem run_letBe {watch? : Option Watch} {reports : List EntryReport}
    (letBe : watch?.getD {} = {})
    (well : Batch.processAll rule entries fs = (.ok reports, after)) :
    ∃ trace, run rule entries watch? fs = (.ok (reportOf rule reports), trace, after) := by
  have alone : unwatched rule entries fs = (.ok (reportOf rule reports), after) :=
    unwatched_ok_iff.mpr ⟨reports, well, rfl⟩
  have same : run rule entries watch? fs = run rule entries none fs := by
    simp only [run, letBe, Option.getD_none]
  obtain ⟨outcome, left⟩ := Prod.ext_iff.mp alone
  rw [same]
  exact ⟨_, Prod.ext outcome (Prod.ext rfl left)⟩

/-- The order of entries that are apart is free. In whatever order they stand, a batch of them that
is let be ends well and leaves the same files; the totals are the same, and there is the same report
on each entry, which says what its input holds, so that the reports are permuted as the entries
are. -/
theorem order_of_entries (apart : Apart rule entries fs) (same : entries.Perm permuted)
    (watch? : Option Watch) (letBe : watch?.getD {} = {}) :
    ∃ (describe : Entry → EntryReport) (report report' : Report) (trace trace' : Trace)
      (after : FileSystem),
      run rule entries watch? fs = (.ok report, trace, after) ∧
      run rule permuted watch? fs = (.ok report', trace', after) ∧
      (∀ entry ∈ entries, ∃ data, fs.read entry.input = .ok data ∧
        describe entry = reportOn rule entry data) ∧
      report.entries = entries.map describe ∧ report'.entries = permuted.map describe ∧
      report'.bytesScanned = report.bytesScanned ∧ report'.matched = report.matched ∧
      report'.rule = report.rule := by
  obtain ⟨after, well, settled⟩ := apart.processAll
  obtain ⟨after', well', settled'⟩ := (apart.perm same).processAll
  cases settled.unique settled' same
  obtain ⟨trace, ran⟩ := run_letBe letBe well
  obtain ⟨trace', ran'⟩ := run_letBe letBe well'
  obtain ⟨scanned, matched⟩ := reportOf_perm rule (same.map (reportAt rule fs))
  refine ⟨reportAt rule fs, _, _, trace, trace', after, ran, ran', ?_, rfl, rfl, scanned, matched,
    rfl⟩
  intro entry member
  obtain ⟨data, read, -⟩ := apart.doable entry member
  exact ⟨data, read, by rw [reportAt, contentOf_of_read read]⟩

/-- Two of the entries have one input, and one list goes to a device. -/
def spread : List Entry :=
  [⟨⟨"a"⟩, ⟨"a.t"⟩⟩, ⟨⟨"b"⟩, ⟨"b.t"⟩⟩, ⟨⟨"a"⟩, ⟨"/dev/null"⟩⟩]

theorem apart_spread : Apart {} spread pairFiles where
  doable := by
    have read : pairFiles.read ⟨"a"⟩ = .ok (Text.bytes "ONE.SEQ") ∧
        pairFiles.read ⟨"b"⟩ = .ok (Text.bytes "ONE.SEQ") := by
      decide
    have opened : pairFiles.create ⟨"a.t"⟩ =
          .ok (["work", "a.t"], pairFiles.set ["work", "a.t"] (.file [])) ∧
        pairFiles.create ⟨"b.t"⟩ =
          .ok (["work", "b.t"], pairFiles.set ["work", "b.t"] (.file [])) ∧
        pairFiles.create ⟨"/dev/null"⟩ = .ok (["dev", "null"], pairFiles) := by
      decide
    have device : pairFiles.node? ["dev", "null"] = some (.special none none) := by decide
    intro entry member
    simp only [spread, List.mem_cons, List.not_mem_nil, or_false] at member
    obtain rfl | rfl | rfl := member
    · exact ⟨_, read.1, by
        rw [FileSystem.write_of_create opened.1 (List.cons_ne_nil _ _)]⟩
    · exact ⟨_, read.2, by
        rw [FileSystem.write_of_create opened.2.1 (List.cons_ne_nil _ _)]⟩
    · exact ⟨_, read.1, by simp only [FileSystem.write, opened.2.2, FileSystem.openFile, device]⟩
  outputs := by decide
  inputs := by decide

/-- From the last to the first, three entries come to the same as from the first to the last. -/
theorem order_of_spread : Apart {} spread pairFiles ∧ spread.Perm spread.reverse ∧
    ∃ (report report' : Report) (trace trace' : Trace) (after : FileSystem),
      run {} spread (some {}) pairFiles = (.ok report, trace, after) ∧
      run {} spread.reverse (some {}) pairFiles = (.ok report', trace', after) ∧
      report'.entries = report.entries.reverse := by
  have same : spread.Perm spread.reverse := spread.reverse_perm.symm
  obtain ⟨describe, report, report', trace, trace', after, ran, ran', -, listed, listed', -⟩ :=
    order_of_entries apart_spread same (some {}) rfl
  refine ⟨apart_spread, same, report, report', trace, trace', after, ran, ran', ?_⟩
  rw [listed, listed', List.map_reverse]

end Batch
end ResourceNames
