import ResourceNames.Extraction
import ResourceNames.Path
import ResourceNames.Time.Span

namespace ResourceNames

/-- How far a batch has come, and the input that was taken up last, as it is shown. -/
structure Progress where
  processed : Nat := 0
  total : Nat
  bytesScanned : Nat := 0
  matched : Nat := 0
  current? : Option String := none
deriving DecidableEq, Repr

namespace Progress

def startEntry (progress : Progress) (input : Path) : Progress :=
  { progress with current? := some input.text }

def finishEntry (progress : Progress) (statistics : Statistics) : Progress :=
  { progress with
    processed := progress.processed + 1
    bytesScanned := progress.bytesScanned + statistics.bytesScanned
    matched := progress.matched + statistics.matched }

/-- Counts are kept in sixty-four bits. -/
def countLimit : Nat := 0x10000000000000000

/-- Whether every count can be kept. -/
def fits (progress : Progress) : Bool :=
  progress.processed < countLimit && progress.bytesScanned < countLimit &&
    progress.matched < countLimit

/-- The share that is done, in percent. Of nothing, nothing is done. -/
def percentage (progress : Progress) : Binary64 :=
  if progress.total = 0 then .ofNat 0
  else
    ((Binary64.ofNat progress.processed).quotient (.ofNat progress.total)).product (.ofNat 100)

/-- The time that the rest will take at the speed so far. It is nothing while there is no speed to
tell, and not an answer if it is longer than a span can be. -/
def remaining? (progress : Progress) (elapsed : Span) : Option Span :=
  if progress.processed = 0 then some ⟨0, 0⟩
  else
    match (Binary64.ofNat progress.processed).quotient elapsed.inSeconds with
    | .finite false significand exponent =>
      if significand = 0 then some ⟨0, 0⟩
      else
        Span.ofSeconds? <|
          (Binary64.ofNat (progress.total - progress.processed)).quotient
            (.finite false significand exponent)
    | _ => some ⟨0, 0⟩

end Progress

/-- A bar that shows how far a batch has come. One that is not enabled is not drawn, but moves. -/
structure ProgressBar where
  enabled : Bool
  length : Nat
  position : Nat
  message : String
deriving DecidableEq, Repr

namespace ProgressBar

def waiting : String := "Scanning binaries..."

/-- A bar cannot show tabs and puts eight blanks instead. -/
def withoutTabs (text : String) : String :=
  text.replace "\t" "        "

def start (enabled : Bool) (length : Nat) : ProgressBar :=
  ⟨enabled, length, 0, if enabled then waiting else ""⟩

/-- The time that remains, if it is a second or more. -/
def outlook (remaining : Span) : String :=
  if 0 < remaining.seconds then s!" (ETA: {remaining.brief})" else ""

/-- Moves the bar. The time that remains is asked for only when there is an input to show it with
and something has been processed. -/
def update? (bar : ProgressBar) (progress : Progress) (elapsed : Span) : Option ProgressBar :=
  match progress.current? with
  | none => some { bar with position := progress.processed, message := waiting }
  | some input =>
    (progress.remaining? elapsed).map fun remaining =>
      let message := s!"Scanning {input}{outlook remaining}"
      { bar with position := progress.processed, message := withoutTabs message }

/-- Ends the bar with a message and the time that it took. Only a bar that is drawn knows where its
end is. -/
def finish (bar : ProgressBar) (message : String) (taken : Span) : ProgressBar :=
  { bar with
    position := if bar.enabled then bar.length else bar.position
    message := withoutTabs s!"{message} (completed in {taken.brief})" }

end ProgressBar

end ResourceNames
