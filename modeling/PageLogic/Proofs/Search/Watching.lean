import PageLogic.Goal
import PageLogic.Proofs.Search.Traffic
/-!
Watched goals. `Goal.watched` is a goal that leaves a mark when it is applied, and one whenever an item is
pulled from its search, also when none is left; otherwise it does what the goal does.
-/
namespace PageLogic

variable {σ : Type} {name : String}

namespace Search

/-- The search with a mark in front of every pull but the first. -/
def counted (name : String) : Search → Search
  | .done => .done
  | .emit item rest => .emit item (.delay fun _ => .note (.pulled name) (rest.counted name))
  | .note m rest => .note m (rest.counted name)
  | .delay rest => .delay fun u => (rest u).counted name
  | .ask q next => .ask q fun r => (next r).counted name
  | .forever part start => .forever (fun n => (part n).counted name) start
  | .seek part start next => .seek part start fun item => (next item).counted name

/-- The search with a mark in front of every pull. -/
def awaited (name : String) (s : Search) : Search :=
  .delay fun _ => .note (.pulled name) (s.counted name)

/-- The search with a mark in front of every pull, behind the marks that it leaves before. -/
def watched (name : String) : Search → Search
  | .note m rest => .note m (rest.watched name)
  | s => s.awaited name

theorem settle_watched (s : Search) (w : World σ) :
    (s.watched name).settle w = ((s.settle w).1.awaited name, (s.settle w).2) := by
  induction s generalizing w with
  | note m rest ih => exact ih (w.mark m)
  | _ => rfl

end Search

namespace Goal

/-- The goal with a mark when it is applied and one whenever an item is pulled. -/
def watched (name : String) (g : Goal) : Goal := fun c b =>
  .note (.applied name) ((g c b).watched name)

/-- Applying a watched goal leaves its mark and applies the goal. -/
theorem settle_watched (g : Goal) (c : Context) (b : Branch) (w : World σ) :
    (g.watched name c b).settle w =
      (((g c b).settle (w.mark (.applied name))).1.awaited name,
        ((g c b).settle (w.mark (.applied name))).2) :=
  Search.settle_watched (g c b) (w.mark (.applied name))

end Goal

end PageLogic
