import WalletRouting.Proofs.Registry.Changes
import WalletRouting.Proofs.Run.Operation
import WalletRouting.Proofs.Run.World

/-! # What lasts

Operations, and runs in which an observer carries operations out, lead from one registry to another. Whatever property
of versions lasts holds wherever they lead.
-/
namespace WalletRouting
set_option autoImplicit false

namespace World

theorem edited_follows {w : World} {done : Except RegistryError (PolicyVersion × Registry)}
    (hdone : ∀ p r, done = .ok (p, r) → w.registry.Follows r) : w.registry.Follows (w.edited done).2.registry := by
  unfold edited
  cases done with
  | error error => exact Registry.Follows.refl _
  | ok made =>
    have hmade := hdone made.1 made.2 rfl
    dsimp only
    split <;> exact hmade

theorem changed_follows {w : World} {done : Except RegistryError Registry}
    (hdone : ∀ r, done = .ok r → w.registry.Follows r) : w.registry.Follows (w.changed done).2.registry := by
  unfold changed
  cases done with
  | error error => exact Registry.Follows.refl _
  | ok r => exact hdone r rfl

theorem tryReset_follows (w : World) : w.registry.Follows w.tryReset.2.registry := by
  unfold tryReset
  split
  · exact ⟨.reopened w.clock, Registry.load_origin _ _⟩
  · exact Registry.Follows.refl _

end World

namespace Operation

theorem apply_follows (o : Operation) (w : World) : w.registry.Follows (o.apply w).2.registry := by
  have hfollows : World.Untouched fun v => w.registry.Follows v.registry := .of_registry fun _ _ h => h
  cases o with
  | add rule => exact World.edited_follows fun _ _ => Registry.addRule_follows
  | update id updates => exact World.edited_follows fun _ _ => Registry.edit_follows (.update id updates)
  | remove id => exact World.edited_follows fun _ _ => Registry.edit_follows (.remove id)
  | reorder ids => exact World.edited_follows fun _ _ => Registry.edit_follows (.reorder ids)
  | pin version => exact World.changed_follows fun _ => Registry.pin_follows
  | cache version mark => exact World.changed_follows fun _ => Registry.markCached_follows
  | fetch cached low high seed => exact (fetch_parallel hfollows.parallel ⟨rfl, .refl _⟩ cached low high seed).2.2
  | reset => exact World.tryReset_follows w
  | run e t u => exact (run_parallel hfollows.parallel ⟨rfl, .refl _⟩ rfl rfl e t u).2.2

end Operation

namespace Registry.Throughout

variable {P : PolicyVersion → Prop}

theorem reaches (hP : Lasting P) {v w : World} (hv : Throughout P v.registry) (h : v.Reaches w) :
    Throughout P w.registry := by
  induction h with
  | refl => exact hv
  | apply o _ ih => exact (ih hv).follows hP (o.apply_follows _)
  | observed observer _ e t u kept _ hafter ih =>
    exact Engine.run_preserves (.of_registry fun _ _ hr => ⟨hr.versions, hr.origin⟩)
      (fun e result kept x hx => hafter e result kept x hx) (ih hv) e t u kept

end Registry.Throughout

end WalletRouting
