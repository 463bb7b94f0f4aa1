import Mathlib.Algebra.GroupWithZero.Nat
import Mathlib.Data.List.Basic
import Mathlib.Data.List.Induction
import ResourceNames.Proofs.FilePlaces

namespace ResourceNames

namespace Path

theorem segments_slash (rest : RawText) : segments (slash :: rest) = [] :: segments rest := by
  rw [segments, if_pos rfl]

theorem exists_segments (raw : RawText) : ∃ first others, segments raw = first :: others := by
  cases raw with
  | nil => exact ⟨[], [], rfl⟩
  | cons byte rest =>
    rw [segments]
    split
    · exact ⟨[], _, rfl⟩
    · split <;> exact ⟨_, _, rfl⟩

theorem segments_plain {raw : RawText} (plain : slash ∉ raw) : segments raw = [raw] := by
  induction raw with
  | nil => rfl
  | cons byte raw ih =>
    obtain ⟨first, others⟩ : slash ≠ byte ∧ slash ∉ raw := by simpa using plain
    rw [segments, if_neg (Ne.symm first), ih others]

theorem plain_of_mem_segments {raw segment : RawText} (member : segment ∈ segments raw) :
    slash ∉ segment := by
  induction raw generalizing segment with
  | nil =>
    cases List.mem_singleton.mp member
    exact List.not_mem_nil
  | cons byte raw ih =>
    rw [segments] at member
    split at member
    · rcases List.mem_cons.mp member with rfl | later
      · exact List.not_mem_nil
      · exact ih later
    · rename_i other
      obtain ⟨first, others, split⟩ := exists_segments raw
      rw [split] at member ih
      rcases List.mem_cons.mp member with rfl | later
      · rw [List.mem_cons, not_or]
        exact ⟨Ne.symm other, ih List.mem_cons_self⟩
      · exact ih (List.mem_cons_of_mem _ later)

/-- Where two paths meet, the last segment of the one and the first of the other make one. -/
theorem segments_append {raw tail last first : RawText} {front others : List RawText}
    (ends : segments raw = front ++ [last]) (begins : segments tail = first :: others) :
    segments (raw ++ tail) = front ++ (last ++ first) :: others := by
  induction raw generalizing front last with
  | nil =>
    obtain ⟨rfl, rfl⟩ : front = [] ∧ last = [] := by
      cases front with
      | nil => simpa [segments] using ends.symm
      | cons segment front => simp [segments] at ends
    exact begins
  | cons byte raw ih =>
    obtain ⟨segment, more, split⟩ := exists_segments raw
    by_cases here : byte = slash
    · subst here
      rw [segments_slash, split] at ends
      cases front with
      | nil => simp at ends
      | cons _ front =>
        obtain ⟨rfl, rest⟩ := List.cons.inj ends
        rw [List.cons_append, segments_slash, ih (split.trans rest)]
        rfl
    · rw [segments, if_neg here, split] at ends
      rw [List.cons_append, segments, if_neg here]
      cases front with
      | nil =>
        obtain ⟨rfl, rfl⟩ : byte :: segment = last ∧ more = [] := by simpa using ends
        have rest : segments (raw ++ tail) = [] ++ (segment ++ first) :: others := ih split
        rw [rest]
        rfl
      | cons _ front =>
        obtain ⟨rfl, rfl⟩ := List.cons.inj ends
        have rest : segments (raw ++ tail) = (segment :: front) ++ (last ++ first) :: others :=
          ih split
        rw [rest]
        rfl

/-- The last segment stands at the end of the path. -/
theorem exists_last_segment (raw : RawText) :
    ∃ front last, segments raw = front ++ [last] ∧ last <:+ raw := by
  induction raw using List.reverseRecOn with
  | nil => exact ⟨[], [], rfl, List.suffix_rfl⟩
  | append_singleton raw byte ih =>
    obtain ⟨front, last, ends, before, rfl⟩ := ih
    by_cases here : byte = slash
    · subst here
      refine ⟨front ++ [last], [], ?_, List.nil_suffix⟩
      rw [segments_append ends (segments_slash []), List.append_nil, List.append_assoc]
      rfl
    · have single : segments [byte] = [[byte]] := segments_plain (by simpa using Ne.symm here)
      exact ⟨front, last ++ [byte], segments_append ends single, before, by simp⟩

/-- What a file can be called in its directory. -/
structure IsName (name : RawText) : Prop where
  nonempty : name ≠ []
  plain : slash ∉ name
  notHere : name ≠ [dot]
  notUp : name ≠ [dot, dot]

theorem Component.ofSegment?_eq_some_named {leading : Bool} {segment name : RawText}
    (plain : slash ∉ segment) : ofSegment? leading segment = some (.named name) ↔
      IsName name ∧ segment = name := by
  constructor
  · intro found
    unfold ofSegment? at found
    split at found
    · cases found
    · rename_i nonempty
      split at found
      · cases leading <;> cases found
      · rename_i notHere
        split at found
        · cases found
        · rename_i notUp
          cases found
          exact ⟨⟨nonempty, plain, notHere, notUp⟩, rfl⟩
  · rintro ⟨proper, rfl⟩
    rw [ofSegment?, if_neg proper.nonempty, if_neg proper.notHere, if_neg proper.notUp]

theorem Component.ofSegment?_eq_none_iff {leading : Bool} {segment : RawText} :
    ofSegment? leading segment = none ↔ segment = [] ∨ leading = false ∧ segment = [dot] := by
  unfold ofSegment?
  split
  · simp [*]
  · split
    · cases leading <;> simp [*]
    · split <;> simp [*]

theorem segments_name {name : RawText} (proper : IsName name) :
    segments name = [name] :=
  segments_plain proper.plain

/-- The components that stand before the last segment. -/
def above (absolute : Bool) (front : List RawText) : List (Component × Nat) :=
  (if absolute then [(.root, 1)] else []) ++ Component.ofSegments true 0 front

theorem placed_eq_above (path : Path) :
    path.placed = above path.isAbsolute (segments path.raw) := rfl

theorem Component.ofSegments_append (leading : Bool) (position : Nat)
    (front back : List RawText) : ∃ next,
      ofSegments leading position (front ++ back) =
        ofSegments leading position front ++ ofSegments (leading && front.isEmpty) next back := by
  induction front generalizing leading position with
  | nil => exact ⟨position, by simp [ofSegments]⟩
  | cons segment front ih =>
    obtain ⟨next, rest⟩ := ih false (position + segment.length + 1)
    refine ⟨next, ?_⟩
    simp only [List.cons_append, ofSegments, rest]
    cases ofSegment? leading segment <;> simp

/-- The last segment gives the last component, or none. -/
theorem placed_of_last {path : Path} {front : List RawText} {last : RawText}
    (ends : segments path.raw = front ++ [last]) : ∃ stop,
      path.placed = above path.isAbsolute front ++ ((Component.ofSegment? front.isEmpty last).map
        fun component => (component, stop)).toList := by
  obtain ⟨next, split⟩ := Component.ofSegments_append true 0 front [last]
  refine ⟨next + last.length, ?_⟩
  rw [placed_eq_above, ends, above, above, split, Bool.true_and, List.append_assoc]
  simp only [Component.ofSegments]
  cases Component.ofSegment? front.isEmpty last <;> rfl

theorem components_of_last {path : Path} {front : List RawText} {last : RawText}
    (ends : segments path.raw = front ++ [last]) :
    path.components = (above path.isAbsolute front).map Prod.fst ++
      (Component.ofSegment? front.isEmpty last).toList := by
  obtain ⟨stop, placed⟩ := placed_of_last ends
  rw [components, placed, List.map_append]
  cases Component.ofSegment? front.isEmpty last <;> rfl

theorem fileName?_eq_some_iff {path : Path} {name : RawText} :
    path.fileName? = some name ↔ path.components.getLast? = some (.named name) := by
  unfold fileName?
  split
  · rename_i found last
    simp [last]
  · rename_i other
    constructor
    · intro none
      cases none
    · intro last
      exact absurd last (other name)

theorem isName_of_mem_ofSegments {segments : List RawText} {name : RawText} {leading : Bool}
    {position stop : Nat} (plain : ∀ segment ∈ segments, slash ∉ segment)
    (member : (.named name, stop) ∈ Component.ofSegments leading position segments) :
    IsName name := by
  induction segments generalizing leading position with
  | nil => cases member
  | cons segment segments ih =>
    obtain ⟨first, others⟩ := List.forall_mem_cons.mp plain
    unfold Component.ofSegments at member
    cases found : Component.ofSegment? leading segment with
    | none =>
      rw [found] at member
      exact ih others member
    | some component =>
      rw [found] at member
      rcases List.mem_cons.mp member with here | later
      · cases here
        exact ((Component.ofSegment?_eq_some_named first).mp found).1
      · exact ih others later

theorem isName_of_fileName? {path : Path} {name : RawText} (named : path.fileName? = some name) :
    IsName name := by
  have member := List.mem_of_getLast? (fileName?_eq_some_iff.mp named)
  obtain ⟨⟨component, stop⟩, placed, rfl⟩ := List.mem_map.mp member
  rw [placed_eq_above, above, List.mem_append] at placed
  rcases placed with root | segment
  · split at root <;> simp at root
  · exact isName_of_mem_ofSegments (fun _ => plain_of_mem_segments) segment

/-- A path whose last segment is a name has it for its file name, and above it the components of
the segments before. -/
theorem fileName?_of_last {path : Path} {front : List RawText} {name : RawText}
    (proper : IsName name) (ends : segments path.raw = front ++ [name]) :
    path.components = (above path.isAbsolute front).map Prod.fst ++ [.named name] ∧
      path.fileName? = some name := by
  have last : Component.ofSegment? front.isEmpty name = some (.named name) :=
    (Component.ofSegment?_eq_some_named proper.plain).mpr ⟨proper, rfl⟩
  have components := components_of_last ends
  rw [last, Option.toList_some] at components
  exact ⟨components, fileName?_eq_some_iff.mpr (by rw [components, List.getLast?_concat])⟩

/-- What ends with a name is a name, if there is no slash in it. -/
theorem IsName.of_suffix {name segment : RawText} (proper : IsName name)
    (suffix : name <:+ segment) (plain : slash ∉ segment) : IsName segment := by
  obtain ⟨nonempty, -, notHere, notUp⟩ := proper
  refine ⟨?_, plain, ?_, ?_⟩
  · rintro rfl
    exact nonempty (List.suffix_nil.mp suffix)
  · rintro rfl
    simp [List.suffix_cons_iff, nonempty, notHere] at suffix
  · rintro rfl
    simp [List.suffix_cons_iff, nonempty, notHere, notUp] at suffix

/-- A path that ends with its file name has it for its last segment. The other paths with a file
name end with slashes or dots behind it. -/
theorem last_segment_of_fileName? {path : Path} {name : RawText}
    (named : path.fileName? = some name) (suffix : name <:+ path.raw) :
    ∃ front, segments path.raw = front ++ [name] := by
  have proper := isName_of_fileName? named
  obtain ⟨before, whole⟩ := suffix
  obtain ⟨front, last, ends, -⟩ := exists_last_segment before
  have split : segments path.raw = front ++ [last ++ name] := by
    rw [← whole]
    exact segments_append ends (segments_name proper)
  have plain : slash ∉ last ++ name := plain_of_mem_segments (by rw [split]; simp)
  -- The last segment is a name, and so the file name.
  have full := proper.of_suffix (List.suffix_append last name) plain
  have found : path.fileName? = some (last ++ name) := (fileName?_of_last full split).2
  have same : last ++ name = name := Option.some.inj (found.symm.trans named)
  exact ⟨front, by rw [split, same]⟩

theorem length_segments (raw : RawText) :
    ((segments raw).map fun segment => segment.length + 1).sum = raw.length + 1 := by
  induction raw with
  | nil => rfl
  | cons byte raw ih =>
    rw [segments]
    split
    · rw [List.map_cons, List.sum_cons, ih, List.length_cons, List.length_nil]
      omega
    · obtain ⟨first, others, split⟩ := exists_segments raw
      rw [split, List.map_cons, List.sum_cons] at ih
      rw [split, List.map_cons, List.sum_cons, List.length_cons, List.length_cons]
      omega

theorem lt_of_mem_ofSegments {segments : List RawText} {component : Component}
    {leading : Bool} {position stop : Nat}
    (member : (component, stop) ∈ Component.ofSegments leading position segments) :
    stop < position + (segments.map fun segment => segment.length + 1).sum := by
  induction segments generalizing leading position with
  | nil => cases member
  | cons segment segments ih =>
    rw [List.map_cons, List.sum_cons]
    unfold Component.ofSegments at member
    cases found : Component.ofSegment? leading segment with
    | none =>
      rw [found] at member
      have later := ih member
      omega
    | some first =>
      rw [found] at member
      rcases List.mem_cons.mp member with here | later
      · cases here
        omega
      · have bound := ih later
        omega

theorem le_length_of_mem_placed {path : Path} {component : Component} {stop : Nat}
    (member : (component, stop) ∈ path.placed) : stop ≤ path.raw.length := by
  rw [placed_eq_above, above, List.mem_append] at member
  rcases member with root | segment
  · split at root
    · rename_i absolute
      obtain ⟨rfl, rfl⟩ := Prod.mk.inj (List.mem_singleton.mp root)
      exact List.length_pos_of_mem (List.mem_of_head? (of_decide_eq_true absolute))
    · cases root
  · have bound := lt_of_mem_ofSegments segment
    rw [length_segments] at bound
    omega

/-- The parent is the path up to the end of the component before the name. -/
theorem parent?_of_placed {path : Path} {front : List (Component × Nat)} {name : RawText}
    {stop : Nat} (placed : path.placed = front ++ [(.named name, stop)]) :
    path.parent? = some ⟨path.raw.take ((front.getLast?.map Prod.snd).getD 0)⟩ := by
  rw [parent?, placed, List.reverse_append]
  rcases List.eq_nil_or_concat front with rfl | ⟨front, ⟨component, before⟩, rfl⟩
  · simp
  · simp

/-- The path leads to a name in the directory, by the components of the two. -/
def LiesIn (path dir : Path) : Prop :=
  ∃ name, path.components = dir.components ++ [.named name]

theorem isAbsolute_name {name : RawText} (proper : IsName name) :
    (⟨name⟩ : Path).isAbsolute = false := by
  rw [isAbsolute, decide_eq_false_iff_not]
  exact fun head => proper.plain (List.mem_of_head? head)

theorem segments_join (dir : Path) {name : RawText} (proper : IsName name) :
    ∃ front, segments (dir.join ⟨name⟩).raw = front ++ [name] ∧
      (dir.join ⟨name⟩).isAbsolute = dir.isAbsolute ∧
      (segments dir.raw = front ∨ segments dir.raw = front ++ [[]]) := by
  have own := segments_name proper
  unfold join
  by_cases nowhere : dir.raw = []
  · rw [if_pos (.inr nowhere)]
    refine ⟨[], own, ?_, .inr (by rw [nowhere]; rfl)⟩
    rw [isAbsolute_name proper, isAbsolute, nowhere]
    rfl
  · rw [if_neg (by simp [isAbsolute_name proper, nowhere])]
    by_cases slashed : dir.raw.getLast? = some slash
    · rw [if_pos slashed]
      obtain ⟨before, whole⟩ := List.getLast?_eq_some_iff.mp slashed
      obtain ⟨front, last, ends, -⟩ := exists_last_segment before
      have split : segments dir.raw = front ++ [last] ++ [[]] := by
        rw [whole, segments_append ends (segments_slash []), List.append_nil]
        simp [segments]
      refine ⟨front ++ [last], ?_, ?_, .inr split⟩
      · rw [segments_append split own, List.nil_append]
      · simp only [isAbsolute, List.head?_append_of_ne_nil _ nowhere]
    · rw [if_neg slashed]
      obtain ⟨front, last, ends, -⟩ := exists_last_segment dir.raw
      have behind : segments (slash :: name) = [] :: [name] := by
        rw [← own]
        exact segments_slash name
      refine ⟨segments dir.raw, ?_, ?_, .inl rfl⟩
      · rw [segments_append ends behind, ends, List.append_nil, List.append_assoc]
        rfl
      · simp only [isAbsolute, List.head?_append_of_ne_nil _ nowhere]

/-- Joined to a directory, a name is one component more. -/
theorem components_join (dir : Path) {name : RawText} (proper : IsName name) :
    (dir.join ⟨name⟩).components = dir.components ++ [.named name] := by
  obtain ⟨front, ends, same, split⟩ := segments_join dir proper
  rw [(fileName?_of_last proper ends).1, same, components, placed_eq_above]
  rcases split with rfl | slashed
  · rfl
  · obtain ⟨next, parts⟩ := Component.ofSegments_append true 0 front [[]]
    rw [slashed, above, above, parts]
    simp [Component.ofSegments, Component.ofSegment?]

theorem names_join (dir : Path) {name : RawText} (proper : IsName name) :
    (dir.join ⟨name⟩).names = dir.names ++ [name] := by
  obtain ⟨front, ends, -, split⟩ := segments_join dir proper
  have nonempty := proper.nonempty
  rw [names, names, ends]
  rcases split with whole | slashed
  · rw [whole]
    simp [nonempty]
  · rw [slashed]
    simp [nonempty]

end Path

/-- What a name in a directory leads to is in that directory. -/
theorem FileSystem.place?_join {fs : FileSystem} {dir : Path} {name : RawText} {l : Location}
    (proper : Path.IsName name) : fs.place? (dir.join ⟨name⟩) = some l ↔
      ∃ d, fs.walk (fs.origin dir) dir.names = .ok d ∧ fs.isDirectoryAt d = true ∧
        l = d ++ [name] := by
  obtain ⟨-, -, same, -⟩ := Path.segments_join dir proper
  have origin : fs.origin (dir.join ⟨name⟩) = fs.origin dir := by
    rw [FileSystem.origin, FileSystem.origin, same]
  rw [place?_eq_some_iff, Path.names_join dir proper, origin]
  constructor
  · rintro ⟨front, last, d, split, walked, directory, rfl⟩
    obtain ⟨rfl, ended⟩ := List.append_inj' split rfl
    cases ended
    refine ⟨d, walked, directory, ?_⟩
    rw [towards, if_neg proper.notHere, if_neg proper.notUp]
  · rintro ⟨d, walked, directory, rfl⟩
    refine ⟨dir.names, name, d, rfl, walked, directory, ?_⟩
    rw [towards, if_neg proper.notHere, if_neg proper.notUp]

end ResourceNames
