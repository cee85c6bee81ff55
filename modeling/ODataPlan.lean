import ODataPlan.Json.Codec
import ODataPlan.Proofs.Acceptance
import ODataPlan.Proofs.Context
import ODataPlan.Proofs.Dotted
import ODataPlan.Proofs.Integrity
import ODataPlan.Proofs.Naming.Lookup
import ODataPlan.Proofs.Plan.Coherence
import ODataPlan.Proofs.Plan.Independence
import ODataPlan.Proofs.Plan.Ordering
import ODataPlan.Proofs.Plan.Rearranging
import ODataPlan.Proofs.Plan.Shaping
import ODataPlan.Proofs.Renaming.Placement
import ODataPlan.Proofs.Selection.Building
import ODataPlan.Proofs.Url.Distinct
import ODataPlan.Proofs.Url.Encoding
import ODataPlan.Proofs.Url.Filters
import ODataPlan.Session
import ODataPlan.Url.Read
