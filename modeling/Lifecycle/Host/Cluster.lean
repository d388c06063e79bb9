import Lifecycle.Host.Site

/-!
Workers that share a database. Each has a clock, a cache and collaborators of its own; what one of them
does at its site, the others find in the database.
-/

namespace Lifecycle.Host

structure Cluster where
  database : Store.Database
  serial : Nat
  workers : List Worker

namespace Cluster

/-- The site of the worker in a place. -/
def site? (c : Cluster) (place : Nat) : Option Site := (c.workers[place]?).map (⟨c.database, c.serial, ·⟩)

/-- The cluster after what the worker in a place did at its site. -/
def update (c : Cluster) (place : Nat) (s : Site) : Cluster :=
  ⟨s.database, s.serial, c.workers.set place s.worker⟩

/-- A step at the site of the worker in a place; nothing where there is no worker. -/
def work {α : Type} (c : Cluster) (place : Nat) (f : Site → α × Site) : Option (α × Cluster) :=
  (c.site? place).map fun s => ((f s).1, c.update place (f s).2)

end Cluster

end Lifecycle.Host
