import Shortcode.Description
import Shortcode.Main
import Shortcode.Proofs.CallOrder
import Shortcode.Proofs.Changes
import Shortcode.Proofs.Clients
import Shortcode.Proofs.Descent
import Shortcode.Proofs.Escapes
import Shortcode.Proofs.FailurePaths
import Shortcode.Proofs.FastPaths
import Shortcode.Proofs.InertFront
import Shortcode.Proofs.InsertionOrder
import Shortcode.Proofs.Locality
import Shortcode.Proofs.NearestClose
import Shortcode.Proofs.PolicyReach
import Shortcode.Proofs.PolicyScope
import Shortcode.Proofs.RawText
import Shortcode.Proofs.Reassembly
import Shortcode.Proofs.ReloadedSettings
import Shortcode.Proofs.SeparateFiles
import Shortcode.Proofs.Sliceable
import Shortcode.Proofs.TagGrammar
import Shortcode.Proofs.TrueContexts
import Shortcode.Proofs.Unmentioned
import Shortcode.Proofs.Paragraphs
import Shortcode.Proofs.WholeTokens
import Shortcode.Proofs.WrittenTags
import Shortcode.Proofs.ConfiguredHandlers
import Shortcode.Proofs.TemplateFilling
