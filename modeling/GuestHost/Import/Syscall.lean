import GuestHost.Wasm.Types

/-!
The system calls that a guest may import: names, canonical one first, and types. Of all of them only
the process id is provided.
-/

namespace GuestHost

inductive Syscall
  | fstat64
  | stat64
  | lstat64
  | newfstatat
  | ftruncate64
  | truncate64
  | unlink
  | unlinkat
  | rmdir
  | getdents64
  | mprotect
  | madvise
  | getpid
  | openat
  | openPath
  | fcntl64
  | ioctl
  | mmapJs
  | mmap2
  | munmapJs
  | munmap
  | gettimeofday
  | time
  | gmtimeJs
  | gmtimeR
  | localtimeJs
  | localtimeR
  | strftime
  | strftimeL
  deriving DecidableEq, Repr

namespace Syscall

open Wasm (ValType FuncType)

def all : List Syscall := [
  fstat64, stat64, lstat64, newfstatat, ftruncate64, truncate64, unlink, unlinkat, rmdir,
  getdents64, mprotect, madvise, getpid, openat, openPath, fcntl64, ioctl, mmapJs, mmap2, munmapJs,
  munmap, gettimeofday, time, gmtimeJs, gmtimeR, localtimeJs, localtimeR, strftime, strftimeL]

def name : Syscall → String
  | fstat64 => "__syscall_fstat64"
  | stat64 => "__syscall_stat64"
  | lstat64 => "__syscall_lstat64"
  | newfstatat => "__syscall_newfstatat"
  | ftruncate64 => "__syscall_ftruncate64"
  | truncate64 => "__syscall_truncate64"
  | unlink => "__syscall_unlink"
  | unlinkat => "__syscall_unlinkat"
  | rmdir => "__syscall_rmdir"
  | getdents64 => "__syscall_getdents64"
  | mprotect => "__syscall_mprotect"
  | madvise => "__syscall_madvise"
  | getpid => "__syscall_getpid"
  | openat => "__syscall_openat"
  | openPath => "__sys_open"
  | fcntl64 => "__syscall_fcntl64"
  | ioctl => "__syscall_ioctl"
  | mmapJs => "_mmap_js"
  | mmap2 => "__sys_mmap2"
  | munmapJs => "_munmap_js"
  | munmap => "__sys_munmap"
  | gettimeofday => "gettimeofday"
  | time => "time"
  | gmtimeJs => "_gmtime_js"
  | gmtimeR => "gmtime_r"
  | localtimeJs => "_localtime_js"
  | localtimeR => "localtime_r"
  | strftime => "strftime"
  | strftimeL => "strftime_l"

def legacyName? : Syscall → Option String
  | fstat64 => some "__sys_fstat64"
  | stat64 => some "__sys_stat64"
  | lstat64 => some "__sys_lstat64"
  | newfstatat => some "__sys_newfstatat"
  | ftruncate64 => some "__sys_ftruncate64"
  | truncate64 => some "__sys_truncate64"
  | unlink => some "__sys_unlink"
  | unlinkat => some "__sys_unlinkat"
  | rmdir => some "__sys_rmdir"
  | getdents64 => some "__sys_getdents64"
  | mprotect => some "__sys_mprotect"
  | madvise => some "__sys_madvise1"
  | getpid => some "__sys_getpid"
  | fcntl64 => some "__sys_fcntl64"
  | ioctl => some "__sys_ioctl"
  | _ => none

def names (s : Syscall) : List String := s.name :: s.legacyName?.toList

def params : Syscall → List ValType
  | getpid => []
  | unlink | rmdir | time => [.i32]
  | fstat64 | stat64 | lstat64 | munmap | gettimeofday | gmtimeR | localtimeR => [.i32, .i32]
  | ftruncate64 | truncate64 => [.i32, .i64]
  | gmtimeJs | localtimeJs => [.i64, .i32]
  | unlinkat | getdents64 | mprotect | madvise | openPath | fcntl64 | ioctl => [.i32, .i32, .i32]
  | newfstatat | openat | strftime => [.i32, .i32, .i32, .i32]
  | strftimeL => [.i32, .i32, .i32, .i32, .i32]
  | mmap2 => [.i32, .i32, .i32, .i32, .i32, .i32]
  | munmapJs => [.i32, .i32, .i32, .i32, .i32, .i64]
  | mmapJs => [.i32, .i32, .i32, .i32, .i64, .i32, .i32]

/-- The two calls that take a time apart store their answer in memory. -/
def returns : Syscall → Bool
  | gmtimeJs | localtimeJs => false
  | _ => true

def type (s : Syscall) : FuncType := ⟨s.params, if s.returns then [.i32] else []⟩

def isProvided : Syscall → Bool
  | getpid => true
  | _ => false

end Syscall

end GuestHost
