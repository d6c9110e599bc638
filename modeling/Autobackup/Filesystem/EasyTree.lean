import Autobackup.Foundation.QString

/-!
# The lines of an easy tree

`EasyTree` writes a line for each directory and each file below the directory it trees.  The fields
are separated by colons, so that a colon in a path is escaped by a backslash.  A directory ends with
a slash and has no size.  The obsolete format has the size and the creation date as well, and only a
file has a hash.
-/

namespace Autobackup.Filesystem

open QString

def colon : Text := [':']

def colonEscaped : Text := ['\\', ':']

inductive CalculateMd5Enum
  | doCalculateMd5sums
  | dontCalculateMd5Sums
  deriving DecidableEq

inductive LastModifiedTimestampsFormat
  | simplifiedLastModifiedTimestamps
  | obsoleteEasyTreeTimestampsWithSizeAndCreationDate
  deriving DecidableEq

structure Md5Sum where
  bytes : List UInt8
  length_bytes : bytes.length = 16

/-- What `QFileInfo` tells of a file or directory.  The size and the dates, which are in
milliseconds, are `qint64`s. -/
structure FileInfo where
  canonicalFilePath : Text
  size : ℤ
  created : ℤ
  lastModified : ℤ
  /-- Of the content, which may fail to open. -/
  md5 : Option Md5Sum
  isLongLong_size : IsLongLong size
  isLongLong_created : IsLongLong created
  isLongLong_lastModified : IsLongLong lastModified

/-- The path without the directory that is treed. -/
def FileInfo.relativePath (info : FileInfo) (chopLength : ℕ) : Text :=
  info.canonicalFilePath.drop chopLength

/-- The line without what ends it. -/
def addDirEntry (chopLength : ℕ) (format : LastModifiedTimestampsFormat) (info : FileInfo) : Text :=
  replace colon colonEscaped (info.relativePath chopLength) ++ ['/'] ++
    (if format = .obsoleteEasyTreeTimestampsWithSizeAndCreationDate then
      colon ++ number (info.created.tdiv 1000) else []) ++
    colon ++ number (info.lastModified.tdiv 1000)

def addFileEntry (chopLength : ℕ) (format : LastModifiedTimestampsFormat)
    (calculateMd5Sums : CalculateMd5Enum) (info : FileInfo) : Text :=
  replace colon colonEscaped (info.relativePath chopLength) ++
    (if format = .obsoleteEasyTreeTimestampsWithSizeAndCreationDate then
      colon ++ number info.size ++ colon ++ number (info.created.tdiv 1000) else []) ++
    colon ++ number (info.lastModified.tdiv 1000) ++
    (if calculateMd5Sums = .doCalculateMd5sums then
      match info.md5 with
      | some hash => colon ++ toHex hash.bytes
      | none => [] else [])

end Autobackup.Filesystem
