import Libpreempt.Stdlib.Thread
import Libpreempt.Stdlib.Vector
import Libpreempt.Transition.Machine

/-! `preempt::poly_task` as one caller uses it: the vector of its threads and
the sequence of `spawn()` and `join()` calls. The mutex `lock_` matters only
between callers and is left to the concurrent model. -/

set_option autoImplicit false

namespace Libpreempt.Preempt

open Libpreempt.Stdlib Libpreempt.Transition

structure PolyTask (Thread : Type) where
  threads : StdVector Thread

namespace PolyTask

variable {Thread : Type} [ThreadType Thread]

def empty : PolyTask Thread := ⟨StdVector.empty⟩

/-- `threads_.emplace_back(Thread {...})`: the temporary is moved into the
new element. -/
def append (growth : Growth) (task : PolyTask Thread) (temporary : Thread) :
    PolyTask Thread :=
  ⟨task.threads.emplaceBack growth ThreadType.moveConstruct
    (ThreadType.moveConstruct temporary)⟩

def back (task : PolyTask Thread) : Option Thread := task.threads.back

/-- The result is the reference that `spawn` returns. An exception of the
thread constructor leaves the vector as it was. -/
def spawn (growth : Growth) (task : PolyTask Thread)
    (temporary : Except SystemError Thread) :
    Except SystemError (PolyTask Thread × Option Thread) :=
  temporary.map fun temporary =>
    let grown := task.append growth temporary
    (grown, grown.back)

/-- How the loop of `join` leaves the elements: the threads joined on the way,
and the exception that ended it early. -/
structure JoinLoop (Thread : Type) where
  threads : List Thread
  joined : List ThreadId
  error : Option SystemError

/-- `for (auto& t : threads_) { t.join(); }`. -/
def joinEach : List Thread → JoinLoop Thread
  | [] => ⟨[], [], none⟩
  | thread :: rest =>
      match ThreadType.join thread with
      | .error error => ⟨thread :: rest, [], some error⟩
      | .ok joined =>
          let loop := joinEach rest
          ⟨joined :: loop.threads, (ThreadType.getId thread).toList ++ loop.joined,
            loop.error⟩

theorem length_joinEach (threads : List Thread) :
    (joinEach threads).threads.length = threads.length := by
  induction threads with
  | nil => rfl
  | cons thread rest ih =>
      unfold joinEach
      split
      · rfl
      · simp [ih]

def join (task : PolyTask Thread) : PolyTask Thread × List ThreadId × Option SystemError :=
  let loop := joinEach task.threads.elements
  (⟨task.threads.replace loop.threads (length_joinEach _)⟩, loop.joined, loop.error)

def joinable (task : PolyTask Thread) : Bool :=
  task.threads.elements.any ThreadType.joinable

/-- The task with what its caller has seen of it so far. -/
structure Session (Thread : Type) where
  task : PolyTask Thread
  -- threads `0 .. created - 1` were spawned
  created : Nat
  joined : List ThreadId
  error : Option SystemError

inductive Call where
  -- the flag tells whether the thread constructor succeeds
  | spawn (constructed : Bool)
  | join
  deriving DecidableEq, Repr

def Session.perform (growth : Growth) (session : Session Thread) : Call → Session Thread
  | .spawn constructed =>
      match session.task.spawn growth (ThreadType.construct session.created constructed) with
      | .error error => { session with error := some error }
      | .ok (task, _) => { session with task, created := session.created + 1, error := none }
  | .join =>
      let (task, joined, error) := session.task.join
      { session with task, joined := session.joined ++ joined, error }

def machine (Thread : Type) [ThreadType Thread] (growth : Growth) :
    Machine (Session Thread) Call where
  initial := ⟨empty, 0, [], none⟩
  step session call := some (session.perform growth call)

/-- What `join()` promises: it returns, every thread spawned before has been
joined, and the task is not joinable afterwards. -/
def JoinLaw (before : Session Thread) : Call → Session Thread → Prop
  | .spawn _, _ => True
  | .join, after =>
      after.error = none ∧ (∀ id < before.created, id ∈ after.joined) ∧
        after.task.joinable = false

end PolyTask

end Libpreempt.Preempt
