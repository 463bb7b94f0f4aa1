import ResourceNames.Time.Timestamp

namespace ResourceNames

/-- What a clock has shown during a batch: the time taken by each entry and by all of them, the
time at which the batch was done, and the time now. -/
structure Clock where
  entry : Nat → Span
  batch : Span
  finished : Timestamp
  now : Timestamp

/-- A clock that stands still at the beginning of 1970. -/
def Clock.stopped : Clock :=
  ⟨fun _ => ⟨0, 0⟩, ⟨0, 0⟩, ⟨0, 0⟩, ⟨0, 0⟩⟩

end ResourceNames
