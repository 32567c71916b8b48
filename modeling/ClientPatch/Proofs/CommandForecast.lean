import ClientPatch.Proofs.CommandEnds
import ClientPatch.Proofs.PatchForecast

/-!
# What the commands foretell

A status command and a dry run look at the file with the same patch, and a real run begins like
that patch. What they print can be read back to what their patches answer. So the three find a file
up to date together, and when it needs a patch they tell of the same report, unless the real run
fails to write it.
-/

namespace ClientPatch

/-- The real patch of a command fails where it writes. -/
def TargetOptions.CannotWrite (o : TargetOptions) (s : Surroundings) (t : FileTree) (path : Path)
    (fault : FileFault) : Prop :=
  o.answer? s t .write = some (.error (.write path fault))

namespace TargetOptions

variable {o : TargetOptions} {s : Surroundings} {t : FileTree}

end TargetOptions

namespace Command

variable {t : FileTree}

end Command

end ClientPatch
