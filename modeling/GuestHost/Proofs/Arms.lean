import GuestHost.Effect.HostFunction

/-!
The host functions arm by arm: what each does with arguments of the right form, given its caller.
Anything else is malformed.
-/

namespace GuestHost

open Wasm (Val)

namespace Primitive

/-- What a primitive does with its arguments, for any caller. -/
inductive Arm : Primitive → List Val → (Context → Run (List Val)) → Prop
  | malformed (p : Primitive) (args : List Val) : Arm p args fun _ => Run.fault .malformed
  | notify (notice : BitVec 32) : Arm notifyMemoryGrowth [.i32 notice] fun _ => do
    notifyGrowth notice
    return []
  | setTemp (value : BitVec 32) : Arm setTempRet0 [.i32 value] fun _ => do
    Run.modifyHost fun h => { h with staging := ⟨value⟩ }
    return []
  | getTemp : Arm getTempRet0 [] fun _ => do
    let host ← Run.host
    return [.i32 host.staging.value]
  | resize (requested : BitVec 32) : Arm resizeHeap [.i32 requested] fun c => do
    let answer ← resize c requested
    return [.i32 answer]
  | abort : Arm abort [] fun _ => Run.fatal (.aborted "abort")
  | longjmp : Arm throwLongjmp [] fun _ => Run.unsupported "_emscripten_throw_longjmp"
  | copy (dest src length : BitVec 32) :
    Arm memcpyBig [.i32 dest, .i32 src, .i32 length] fun c => do
    copy c dest src length
    return []

theorem exists_arm (p : Primitive) (args : List Val) :
    ∃ F, (∀ c, p.run c args = F c) ∧ p.Arm args F := by
  refine ⟨fun c => p.run c args, fun _ => rfl, ?_⟩
  cases p
  all_goals
    unfold run
    dsimp only
    split
    · constructor
    · exact .malformed _ _

end Primitive

namespace WasiCall

/-- What a call does with its arguments, for any caller. -/
inductive Arm : WasiCall → List Val → (Context → Run (List Val)) → Prop
  | malformed (w : WasiCall) (args : List Val) : Arm w args fun _ => Run.fault .malformed
  | write (fd iovs count nwritten : BitVec 32) :
    Arm fdWrite [.i32 fd, .i32 iovs, .i32 count, .i32 nwritten] fun c =>
      answer (write c fd iovs count nwritten)
  | exit (code : BitVec 32) : Arm procExit [.i32 code] fun _ => Run.fail (.guestExit code.toInt)
  | sizes (w : WasiCall) (query : w = argsSizesGet ∨ w = environSizesGet) (count size : BitVec 32) :
    Arm w [.i32 count, .i32 size] fun c => answer (emptySizes c count size)
  | nothing (w : WasiCall) (args : List Val) : Arm w args fun _ => return [.i32 Errno.success]
  | clock (id pointer : BitVec 32) (precision : BitVec 64) :
    Arm clockTimeGet [.i32 id, .i64 precision, .i32 pointer] fun c =>
    answer (clockTime c id pointer)
  | random (buffer length : BitVec 32) : Arm randomGet [.i32 buffer, .i32 length] fun c =>
    answer (random c buffer length)
  | unsupported (w : WasiCall) (args : List Val) : Arm w args fun _ => Run.unsupported w.name

theorem exists_arm (w : WasiCall) (args : List Val) :
    ∃ F, (∀ c, w.run c args = F c) ∧ w.Arm args F := by
  refine ⟨fun c => w.run c args, fun _ => rfl, ?_⟩
  cases w with
  | fdRead | fdClose | fdSeek => exact .unsupported _ _
  | fdWrite | procExit | clockTimeGet | randomGet =>
    unfold run
    dsimp only
    split
    · constructor
    · exact .malformed _ _
  | environSizesGet =>
    unfold run
    dsimp only
    split
    · exact .sizes _ (.inr rfl) _ _
    · exact .malformed _ _
  | argsSizesGet =>
    unfold run
    dsimp only
    split
    · exact .sizes _ (.inl rfl) _ _
    · exact .malformed _ _
  | environGet | argsGet =>
    unfold run
    dsimp only
    split
    · exact .nothing _ _
    · exact .malformed _ _

end WasiCall

end GuestHost
