import CommonJs.Package.Descriptor
import CommonJs.Path.Normal

/-!
# Remembered descriptors

Each directory is asked for its manifest once; that there is none is
remembered as well. Directories count as the same when their paths lead the
same way, and the spelling that was asked for first is the one that a
descriptor shows. The memo also keeps the history of the questions, which no
answer depends on.
-/

namespace CommonJs

/-- The answers given so far, by directory. The directories that were asked
for, and those among them whose manifest was looked for in the file system,
are listed with the latest first. -/
structure DescriptorMemo where
  /-- The manifest of each directory, or that there is none. -/
  answers : PathMap (Option PackageDescriptor)
  /-- The directories that were asked for. -/
  asked : List Path
  /-- Those whose manifests were looked for in the file system. -/
  looked : List Path

namespace DescriptorMemo

/-- The memo before any question. -/
def empty : DescriptorMemo := ⟨∅, [], []⟩

/-- The number of directories asked for. -/
def size (memo : DescriptorMemo) : Nat :=
  memo.answers.size

/-- The directories asked for. -/
def directories (memo : DescriptorMemo) : List Path :=
  memo.answers.keys.map Path.ofComponents

/-- The descriptor of a directory, remembered or read now. -/
def describe
    (fileSystem : FileSystem)
    (manifest : String)
    (directory : Path)
    (memo : DescriptorMemo) : Option PackageDescriptor × DescriptorMemo :=
  match memo.answers[directory.components]? with
  | some answer => (answer, { memo with asked := directory :: memo.asked })
  | none =>
      let answer := PackageDescriptor.read? fileSystem manifest directory
      (answer,
        { answers := memo.answers.insert directory.components answer
          asked := directory :: memo.asked
          looked := directory :: memo.looked })

/-- The first descriptor among those of several directories; the directories
after it are not asked for. -/
def firstOf
    (fileSystem : FileSystem)
    (manifest : String) :
    List Path → DescriptorMemo → Option PackageDescriptor × DescriptorMemo
  | [], memo => (none, memo)
  | directory :: others, memo =>
      match memo.describe fileSystem manifest directory with
      | (some descriptor, memo) => (some descriptor, memo)
      | (none, memo) => firstOf fileSystem manifest others memo

/-- The descriptor of the package around a path: that of the path itself or
of the nearest directory above it. -/
def nearest
    (fileSystem : FileSystem)
    (manifest : String)
    (path : Path)
    (memo : DescriptorMemo) : Option PackageDescriptor × DescriptorMemo :=
  firstOf fileSystem manifest path.ancestors memo

end DescriptorMemo
end CommonJs
