import GuestHost.Import.Syscall
import GuestHost.Import.Trampoline

/-!
The functions that a host offers to its guest: where each is found, under which names, and its type.
-/

namespace GuestHost

open Wasm (FuncType ValType)

/-- What the guest's own runtime calls on. -/
inductive Primitive
  | notifyMemoryGrowth
  | setTempRet0
  | getTempRet0
  | resizeHeap
  | abort
  | throwLongjmp
  | memcpyBig
  deriving DecidableEq, Repr

namespace Primitive

def all : List Primitive :=
  [notifyMemoryGrowth, setTempRet0, getTempRet0, resizeHeap, abort, throwLongjmp, memcpyBig]

def names : Primitive → List String
  | notifyMemoryGrowth => ["emscripten_notify_memory_growth"]
  | setTempRet0 => ["setTempRet0", "_emscripten_tempret_set"]
  | getTempRet0 => ["getTempRet0", "_emscripten_tempret_get"]
  | resizeHeap => ["emscripten_resize_heap"]
  | abort => ["abort", "_abort_js"]
  | throwLongjmp => ["_emscripten_throw_longjmp"]
  | memcpyBig => ["emscripten_memcpy_big", "_emscripten_memcpy_js"]

def type : Primitive → FuncType
  | notifyMemoryGrowth | setTempRet0 => ⟨[.i32], []⟩
  | getTempRet0 => ⟨[], [.i32]⟩
  | resizeHeap => ⟨[.i32], [.i32]⟩
  | abort | throwLongjmp => ⟨[], []⟩
  | memcpyBig => ⟨[.i32, .i32, .i32], []⟩

end Primitive

/-- What is offered of the system interface: output, exit, an empty environment, clocks and random
bytes. -/
inductive WasiCall
  | fdWrite
  | procExit
  | environSizesGet
  | environGet
  | argsSizesGet
  | argsGet
  | clockTimeGet
  | randomGet
  | fdRead
  | fdClose
  | fdSeek
  deriving DecidableEq, Repr

namespace WasiCall

def all : List WasiCall :=
  [fdWrite, procExit, environSizesGet, environGet, argsSizesGet, argsGet, clockTimeGet, randomGet,
    fdRead, fdClose, fdSeek]

def name : WasiCall → String
  | fdWrite => "fd_write"
  | procExit => "proc_exit"
  | environSizesGet => "environ_sizes_get"
  | environGet => "environ_get"
  | argsSizesGet => "args_sizes_get"
  | argsGet => "args_get"
  | clockTimeGet => "clock_time_get"
  | randomGet => "random_get"
  | fdRead => "fd_read"
  | fdClose => "fd_close"
  | fdSeek => "fd_seek"

def type : WasiCall → FuncType
  | fdWrite | fdRead => ⟨[.i32, .i32, .i32, .i32], [.i32]⟩
  | procExit => ⟨[.i32], []⟩
  | environSizesGet | environGet | argsSizesGet | argsGet | randomGet => ⟨[.i32, .i32], [.i32]⟩
  | clockTimeGet => ⟨[.i32, .i64, .i32], [.i32]⟩
  | fdClose => ⟨[.i32], [.i32]⟩
  | fdSeek => ⟨[.i32, .i64, .i32, .i32], [.i32]⟩

end WasiCall

inductive HostFunction
  | primitive (p : Primitive)
  | trampoline (t : Trampoline)
  | syscall (s : Syscall)
  | wasi (w : WasiCall)
  deriving DecidableEq, Repr

namespace HostFunction

def env : String := "env"

def wasiNs : String := "wasi_snapshot_preview1"

def ns : HostFunction → String
  | wasi _ => wasiNs
  | _ => env

def names : HostFunction → List String
  | primitive p => p.names
  | trampoline t => [t.name]
  | syscall s => s.names
  | wasi w => [w.name]

def name (f : HostFunction) : String := f.names.headD ""

def type : HostFunction → FuncType
  | primitive p => p.type
  | trampoline t => t.type
  | syscall s => s.type
  | wasi w => w.type

def set (withWasi : Bool) : List HostFunction :=
  Primitive.all.map primitive ++ Trampoline.all.map trampoline ++ Syscall.all.map syscall ++
    (if withWasi then WasiCall.all.map wasi else [])

end HostFunction

end GuestHost
