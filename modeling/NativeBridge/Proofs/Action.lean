import NativeBridge.Journal

/-! # Actions in a world

An action takes a world to a result and another world. These laws say what a sequence of actions
does in a given world.
-/

namespace NativeBridge.Action

variable {W α β : Type}

@[simp] theorem bind_apply (x : StateM W α) (f : α → StateM W β) (w : W) :
    (x >>= f) w = f (x w).1 (x w).2 := rfl

@[simp] theorem pure_apply (a : α) (w : W) : (pure a : StateM W α) w = (a, w) := rfl

@[simp] theorem note_apply [Journal W] (n : Notice) (w : W) :
    note n w = ((), Journal.take n w) := rfl

end NativeBridge.Action
