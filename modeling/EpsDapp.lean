import EpsDapp.Effect.Pool
import EpsDapp.Chain.Evm
import EpsDapp.Delivery.Exclusivity
import EpsDapp.Delivery.Failed
import EpsDapp.Delivery.FailureAudit
import EpsDapp.Delivery.Confirmed
import EpsDapp.Delivery.Verification
import EpsDapp.Delivery.Backlog
import EpsDapp.Delivery.Drain
import EpsDapp.Delivery.Exit
import EpsDapp.Delivery.Resume
import EpsDapp.Delivery.Status
import EpsDapp.Hedera.Metadata
import EpsDapp.Hedera.Mints
import EpsDapp.Hedera.Noninterference
import EpsDapp.Reads.Certificates
import EpsDapp.Reads.Isolation
import EpsDapp.Reads.Layout
import EpsDapp.Reads.LiveStatus
import EpsDapp.Reads.Poller
import EpsDapp.Reads.Rendering
import EpsDapp.Reads.WriteOnce
import EpsDapp.Notices.Alerts
import EpsDapp.Notices.Masking
import EpsDapp.Quota.Concurrency
import EpsDapp.Intake.Audit
import EpsDapp.Intake.Custody
import EpsDapp.Hedera.Image
import EpsDapp.Intake.Form
import EpsDapp.Intake.Recipients
import EpsDapp.Intake.Recovery
import EpsDapp.Intake.Metering
import EpsDapp.Intake.Upload
import EpsDapp.Billing.Bootstrap
import EpsDapp.Billing.Bounds
import EpsDapp.Billing.Checkout
import EpsDapp.Billing.Conservation
import EpsDapp.Billing.Webhook
import EpsDapp.Billing.Term
import EpsDapp.Billing.Periods
import EpsDapp.Server.RateLimit
import EpsDapp.Server.Throttle
import EpsDapp.Server.Flood
