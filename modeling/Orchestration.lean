import Orchestration.Main
import Orchestration.Proofs.Analysis.Decision
import Orchestration.Proofs.Analysis.File
import Orchestration.Proofs.Analysis.Gap
import Orchestration.Proofs.Analysis.Listen
import Orchestration.Proofs.Analysis.Unrecognized
import Orchestration.Proofs.Designer.Segment
import Orchestration.Proofs.Model.Ancestry
import Orchestration.Proofs.Model.Correlation
import Orchestration.Proofs.Model.Hierarchy
import Orchestration.Proofs.Model.Identity
import Orchestration.Proofs.Model.Index
import Orchestration.Proofs.Model.Links
import Orchestration.Proofs.Model.Section
import Orchestration.Proofs.Model.Variables
import Orchestration.Proofs.Report.Details
import Orchestration.Proofs.Report.Frequency
import Orchestration.Proofs.Report.Totals
import Orchestration.Proofs.Scan
import Orchestration.Proofs.Settings.Answer
import Orchestration.Proofs.Shape.Binding
import Orchestration.Proofs.Shape.Construct
import Orchestration.Proofs.Shape.Direct
import Orchestration.Proofs.Shape.History
import Orchestration.Proofs.Shape.Relocation
import Orchestration.Proofs.Shape.Switch
import Orchestration.Proofs.Source
import Orchestration.Xml.Query
