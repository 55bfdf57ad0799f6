/-
ImportChain.Files.View — what resolving needs to know of a disk.

Four questions about locations, each answered by a function: a lookup
takes any view, and what a lookup finds depends on nothing else.
-/

namespace ImportChain

/-- Answers about locations. Links are followed. -/
structure View where
  isFile : String → Bool
  isDir : String → Bool
  /-- The text of a file. -/
  read? : String → Option String
  /-- The one location of a file or directory without `.`, `..` and links. -/
  canonical? : String → Option String

end ImportChain
