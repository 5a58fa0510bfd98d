/-! # Programs over an interface of atomic operations

A program is a tree of typed requests: it asks for one operation at a time and
continues with the reply. The same program is executed sequentially by
`Program.run` and, with other programs, by the interleaving semantics of
`Foundation.Interleaving`; neither of the two is built into the program. -/

namespace RateLimiting

structure Interface where
  Op : Type
  Reply : Op → Type

inductive Program (I : Interface) (α : Type) : Type
  | pure (value : α)
  | request (op : I.Op) (next : I.Reply op → Program I α)

namespace Program

variable {I : Interface} {α β γ : Type}

def bind : Program I α → (α → Program I β) → Program I β
  | .pure value, rest => rest value
  | .request op next, rest => .request op fun reply => (next reply).bind rest

instance : Monad (Program I) where
  pure := .pure
  bind := .bind

def perform (op : I.Op) : Program I (I.Reply op) :=
  .request op .pure

def interpret {J : Interface} (handler : (op : I.Op) → Program J (I.Reply op)) :
    Program I α → Program J α
  | .pure value => .pure value
  | .request op next =>
      (handler op).bind fun reply => (next reply).interpret handler

@[simp] theorem pure_eq (value : α) : (Pure.pure value : Program I α) = .pure value :=
  rfl

@[simp] theorem pure_bind (value : α) (rest : α → Program I β) :
    Program.pure value >>= rest = rest value := rfl

@[simp] theorem request_bind (op : I.Op) (next : I.Reply op → Program I α)
    (rest : α → Program I β) :
    Program.request op next >>= rest =
      .request op fun reply => next reply >>= rest := rfl

@[simp] theorem bind_assoc (program : Program I α) (first : α → Program I β)
    (rest : β → Program I γ) :
    program >>= first >>= rest = program >>= fun value => first value >>= rest := by
  induction program with
  | pure value => rfl
  | request op next induction =>
      simp only [request_bind]
      congr
      funext reply
      exact induction reply

end Program

/-- How the operations of an interface act on a shared world. `Choice` is what
the environment decides about one operation, `Change` a move the environment
makes on its own. -/
structure Machine (I : Interface) where
  World : Type
  Choice : Type
  Change : Type
  perform : (op : I.Op) → Choice → World → I.Reply op × World
  evolve : Change → World → World

namespace Program

variable {I : Interface} {α β : Type}

/-- Sequential execution: nothing else happens between the operations, and the
environment makes the same choice at each of them. -/
def run (m : Machine I) (choice : m.Choice) :
    Program I α → m.World → α × m.World
  | .pure value, world => (value, world)
  | .request op next, world =>
      let (reply, after) := m.perform op choice world
      (next reply).run m choice after

variable (m : Machine I) (choice : m.Choice)

@[simp] theorem run_pure (value : α) (world : m.World) :
    (Program.pure value : Program I α).run m choice world = (value, world) := rfl

@[simp] theorem run_request (op : I.Op) (next : I.Reply op → Program I α)
    (world : m.World) :
    (Program.request op next).run m choice world =
      (next (m.perform op choice world).1).run m choice
        (m.perform op choice world).2 := rfl

theorem run_bind (program : Program I α) (rest : α → Program I β)
    (world : m.World) :
    (program >>= rest).run m choice world =
      (rest (program.run m choice world).1).run m choice
        (program.run m choice world).2 := by
  induction program generalizing world with
  | pure value => rfl
  | request op next induction =>
      simp only [request_bind, run_request]
      exact induction _ _

end Program

end RateLimiting
