import Antarc.Properties.Canonical
import Antarc.Properties.Atomicity
import Antarc.Properties.Fragments
import Antarc.Properties.Checksums
import Antarc.Properties.Acknowledged
import Antarc.Properties.Tracking
import Antarc.Properties.Cutting
import Antarc.Properties.Reordering
import Antarc.Properties.Abandoned
import Antarc.Properties.Timely
import Antarc.Properties.Ages
import Antarc.Properties.Sizes
import Antarc.Properties.AckTrackers
import Antarc.Properties.Announcements
import Antarc.Properties.Overflow
import Antarc.Properties.Trackers
import Antarc.Properties.Exchanges
import Antarc.Properties.Strangers
import Antarc.Properties.Outboxes
import Antarc.Properties.Expectations
import Antarc.Properties.Bursts
import Antarc.Properties.Interleavings
import Antarc.Properties.Mutual
import Antarc.Properties.EarlyRuns
import Antarc.Properties.Enrolling
