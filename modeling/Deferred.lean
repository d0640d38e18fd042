import Deferred.Decimal
import Deferred.Proofs.Announcements
import Deferred.Proofs.Checked
import Deferred.Proofs.Courses
import Deferred.Proofs.FailureKinds
import Deferred.Proofs.FoldPhases
import Deferred.Proofs.Listening
import Deferred.Proofs.Overflow
import Deferred.Proofs.Pairs
import Deferred.Proofs.Probes
import Deferred.Proofs.Reordering
import Deferred.Proofs.Repetition
import Deferred.Proofs.Specialization
import Deferred.Proofs.Splitting
import Deferred.Proofs.Identities
import Deferred.Proofs.Permuting
import Deferred.Proofs.Regrouping
import Deferred.Proofs.Rendering
import Deferred.Proofs.Comparison
